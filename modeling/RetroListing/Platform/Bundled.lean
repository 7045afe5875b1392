/-
The comments that come with each platform, as comment files.
-/
import RetroListing.Platform.Basic

namespace RetroListing.Platform

/-- Comments on the Commodore 64. -/
def c64Comments : String :=
  "; Commodore 64 system comments.
; Format: ADDR[-ADDR] LANG TEXT (addresses in hex, ranges inclusive).
; Exact entries always win over ranges, whatever the range width.

0000 en Processor port data direction register
0000 it Registro direzione dati della porta del processore
0001 en Processor port: memory configuration and datasette
0001 it Porta del processore: configurazione memoria e registratore
0003-0004 en Vector: convert float to integer
0003-0004 it Vettore: conversione da virgola mobile a intero
0005-0006 en Vector: convert integer to float
0005-0006 it Vettore: conversione da intero a virgola mobile
002B-002C en Pointer: start of BASIC text
002B-002C it Puntatore: inizio del testo BASIC
002D-002E en Pointer: start of BASIC variables
002D-002E it Puntatore: inizio delle variabili BASIC
0090 en Kernal I/O status word (ST)
0090 it Parola di stato I/O del Kernal (ST)
00A0-00A2 en Real-time jiffy clock
00A0-00A2 it Orologio jiffy in tempo reale
00C5 en Matrix code of last key pressed
00C5 it Codice matrice dell'ultimo tasto premuto
00C6 en Number of characters in keyboard buffer
00C6 it Numero di caratteri nel buffer della tastiera
00FB-00FE en Free zero page for user programs
00FB-00FE it Pagina zero libera per programmi utente
0100-01FF en CPU stack
0100-01FF it Stack della CPU
0277-0280 en Keyboard buffer
0277-0280 it Buffer della tastiera
0286 en Current text color
0286 it Colore attuale del testo
0314-0315 en Vector: hardware IRQ interrupt
0314-0315 it Vettore: interrupt IRQ hardware
0316-0317 en Vector: BRK instruction interrupt
0316-0317 it Vettore: interrupt dell'istruzione BRK
0318-0319 en Vector: NMI interrupt
0318-0319 it Vettore: interrupt NMI
0400-07E7 en Default video matrix
0400-07E7 it Matrice video predefinita
07F8-07FF en Sprite data pointers
07F8-07FF it Puntatori ai dati degli sprite
A000-BFFF en BASIC ROM
A000-BFFF it ROM del BASIC

D000 en Sprite 0 X position
D000 it Posizione X dello sprite 0
D001 en Sprite 0 Y position
D001 it Posizione Y dello sprite 0
D010 en Sprites 0-7 X position MSB
D010 it MSB della posizione X degli sprite 0-7
D011 en VIC control register 1
D011 it Registro di controllo 1 del VIC
D012 en Raster line
D012 it Linea di raster
D015 en Sprite enable
D015 it Abilitazione degli sprite
D016 en VIC control register 2
D016 it Registro di controllo 2 del VIC
D018 en VIC memory pointers
D018 it Puntatori di memoria del VIC
D019 en VIC interrupt flag register
D019 it Registro dei flag di interrupt del VIC
D01A en VIC interrupt mask register
D01A it Registro maschera di interrupt del VIC
D020 en Border color
D020 it Colore del bordo
D021 en Background color 0
D021 it Colore di sfondo 0
D027 en Sprite 0 color
D027 it Colore dello sprite 0
D000-D3FF en VIC-II registers
D000-D3FF it Registri del VIC-II

D400 en Voice 1: frequency low byte
D400 it Voce 1: byte basso della frequenza
D401 en Voice 1: frequency high byte
D401 it Voce 1: byte alto della frequenza
D404 en Voice 1: control register
D404 it Voce 1: registro di controllo
D405 en Voice 1: attack/decay
D405 it Voce 1: attacco/decadimento
D406 en Voice 1: sustain/release
D406 it Voce 1: sostegno/rilascio
D418 en Filter mode and main volume
D418 it Modo del filtro e volume principale
D400-D7FF en SID registers
D400-D7FF it Registri del SID

D800-DBFF en Color RAM
D800-DBFF it RAM colore
DC00 en CIA 1: data port A (keyboard column)
DC00 it CIA 1: porta dati A (colonna tastiera)
DC01 en CIA 1: data port B (keyboard row)
DC01 it CIA 1: porta dati B (riga tastiera)
DC0D en CIA 1: interrupt control register
DC0D it CIA 1: registro di controllo interrupt
DC00-DCFF en CIA 1 registers
DC00-DCFF it Registri del CIA 1
DD00 en CIA 2: data port A (serial bus, VIC bank)
DD00 it CIA 2: porta dati A (bus seriale, banco VIC)
DD0D en CIA 2: NMI control register
DD0D it CIA 2: registro di controllo NMI
DD00-DDFF en CIA 2 registers
DD00-DDFF it Registri del CIA 2
DE00-DEFF en I/O area 1 (cartridge)
DE00-DEFF it Area I/O 1 (cartuccia)
DF00-DFFF en I/O area 2 (cartridge)
DF00-DFFF it Area I/O 2 (cartuccia)

FF81 en CINT: initialize screen editor
FF81 it CINT: inizializza l'editor dello schermo
FF84 en IOINIT: initialize I/O devices
FF84 it IOINIT: inizializza i dispositivi di I/O
FFBA en SETLFS: set logical file parameters
FFBA it SETLFS: imposta i parametri del file logico
FFBD en SETNAM: set file name
FFBD it SETNAM: imposta il nome del file
FFCF en CHRIN: input a character
FFCF it CHRIN: legge un carattere
FFD2 en CHROUT: output a character
FFD2 it CHROUT: stampa un carattere
FFD5 en LOAD: load RAM from device
FFD5 it LOAD: carica la RAM da un dispositivo
FFD8 en SAVE: save RAM to device
FFD8 it SAVE: salva la RAM su un dispositivo
FFE1 en STOP: check the STOP key
FFE1 it STOP: controlla il tasto STOP
FFE4 en GETIN: get a character
FFE4 it GETIN: preleva un carattere
FFFA-FFFB en Hardware vector: NMI
FFFA-FFFB it Vettore hardware: NMI
FFFC-FFFD en Hardware vector: RESET
FFFC-FFFD it Vettore hardware: RESET
FFFE-FFFF en Hardware vector: IRQ
FFFE-FFFF it Vettore hardware: IRQ
E000-FFF9 en KERNAL ROM
E000-FFF9 it ROM del KERNAL
"

/-- Comments on the second SID of a stereo Commodore 64. -/
def c64StereoSidComments : String :=
  "; Second SID mapped at $D420. Everything else comes from the Commodore 64 profile.

D420 en SID 2 voice 1: frequency low byte
D420 it SID 2 voce 1: byte basso della frequenza
D421 en SID 2 voice 1: frequency high byte
D421 it SID 2 voce 1: byte alto della frequenza
D424 en SID 2 voice 1: control register
D424 it SID 2 voce 1: registro di controllo
D425 en SID 2 voice 1: attack/decay
D425 it SID 2 voce 1: attacco/decadimento
D426 en SID 2 voice 1: sustain/release
D426 it SID 2 voce 1: sostegno/rilascio
D438 en SID 2: filter mode and main volume
D438 it SID 2: modo del filtro e volume principale
D420-D43F en Second SID registers
D420-D43F it Registri del secondo SID
"

/-- Comments on the Commodore 128. -/
def c128Comments : String :=
  "; Commodore 128 (native mode) system comments.

0000 en 8502 processor port data direction register
0000 it Registro direzione dati della porta dell'8502
0001 en 8502 processor port
0001 it Porta del processore 8502
0090 en Kernal I/O status word (ST)
0090 it Parola di stato I/O del Kernal (ST)
00D0 en Number of characters in keyboard buffer
00D0 it Numero di caratteri nel buffer della tastiera
00D7 en Active display (bit 7 set: 80 columns)
00D7 it Schermo attivo (bit 7 a uno: 80 colonne)
0100-01FF en CPU stack
0100-01FF it Stack della CPU
0314-0315 en Vector: hardware IRQ interrupt
0314-0315 it Vettore: interrupt IRQ hardware
0400-07E7 en VIC 40-column video matrix
0400-07E7 it Matrice video del VIC a 40 colonne
D011 en VIC control register 1
D011 it Registro di controllo 1 del VIC
D012 en Raster line
D012 it Linea di raster
D020 en Border color
D020 it Colore del bordo
D021 en Background color 0
D021 it Colore di sfondo 0
D030 en VIC clock control (2 MHz mode)
D030 it Controllo del clock del VIC (modo 2 MHz)
D000-D3FF en VIC-IIe registers
D000-D3FF it Registri del VIC-IIe
D418 en SID filter mode and main volume
D418 it SID: modo del filtro e volume principale
D400-D4FF en SID registers
D400-D4FF it Registri del SID
D500 en MMU configuration register
D500 it Registro di configurazione della MMU
D501-D504 en MMU preconfiguration registers A-D
D501-D504 it Registri di preconfigurazione A-D della MMU
D505 en MMU mode configuration register
D505 it Registro di configurazione modo della MMU
D506 en MMU RAM configuration register
D506 it Registro di configurazione RAM della MMU
D507-D508 en MMU page 0 pointer
D507-D508 it Puntatore pagina 0 della MMU
D509-D50A en MMU page 1 pointer
D509-D50A it Puntatore pagina 1 della MMU
D600 en VDC address/status register
D600 it Registro indirizzo/stato del VDC
D601 en VDC data register
D601 it Registro dati del VDC
D800-DBFF en Color RAM
D800-DBFF it RAM colore
DC00-DCFF en CIA 1 registers
DC00-DCFF it Registri del CIA 1
DD00-DDFF en CIA 2 registers
DD00-DDFF it Registri del CIA 2
FF00 en MMU configuration register (always visible)
FF00 it Registro di configurazione della MMU (sempre visibile)
FF47 en SPIN_SPOUT: setup fast serial
FF47 it SPIN_SPOUT: imposta il seriale veloce
FF5F en SWAPPER: switch 40/80 column display
FF5F it SWAPPER: commuta lo schermo 40/80 colonne
FF68 en SETBNK: set bank for I/O operations
FF68 it SETBNK: imposta il banco per le operazioni di I/O
FFD2 en BSOUT: output a character
FFD2 it BSOUT: stampa un carattere
FFE4 en GETIN: get a character
FFE4 it GETIN: preleva un carattere
"

/-- Comments on the Commodore VIC-20. -/
def vic20Comments : String :=
  "; Commodore VIC-20 system comments.

0090 en Kernal I/O status word (ST)
0090 it Parola di stato I/O del Kernal (ST)
00C6 en Number of characters in keyboard buffer
00C6 it Numero di caratteri nel buffer della tastiera
0100-01FF en CPU stack
0100-01FF it Stack della CPU
0314-0315 en Vector: hardware IRQ interrupt
0314-0315 it Vettore: interrupt IRQ hardware
9000 en VIC: horizontal origin and interlace
9000 it VIC: origine orizzontale e interlacciamento
9001 en VIC: vertical origin
9001 it VIC: origine verticale
9002 en VIC: number of columns and video address bit 9
9002 it VIC: numero di colonne e bit 9 dell'indirizzo video
9003 en VIC: number of rows and character size
9003 it VIC: numero di righe e dimensione dei caratteri
9004 en VIC: raster line
9004 it VIC: linea di raster
9005 en VIC: screen and character memory location
9005 it VIC: posizione della memoria schermo e caratteri
900A en VIC: bass oscillator
900A it VIC: oscillatore dei bassi
900B en VIC: alto oscillator
900B it VIC: oscillatore dei contralti
900C en VIC: soprano oscillator
900C it VIC: oscillatore dei soprani
900D en VIC: noise generator
900D it VIC: generatore di rumore
900E en VIC: volume and auxiliary color
900E it VIC: volume e colore ausiliario
900F en VIC: screen and border color
900F it VIC: colore dello schermo e del bordo
9000-900F en VIC registers
9000-900F it Registri del VIC
9110-911F en VIA 1 registers
9110-911F it Registri del VIA 1
9120-912F en VIA 2 registers
9120-912F it Registri del VIA 2
9400-97FF en Color RAM
9400-97FF it RAM colore
C000-DFFF en BASIC ROM
C000-DFFF it ROM del BASIC
FFD2 en CHROUT: output a character
FFD2 it CHROUT: stampa un carattere
FFE4 en GETIN: get a character
FFE4 it GETIN: preleva un carattere
E000-FFF9 en KERNAL ROM
E000-FFF9 it ROM del KERNAL
"

/-- Comments on the Commodore Plus4. -/
def plus4Comments : String :=
  "; Commodore Plus/4 system comments.

0100-01FF en CPU stack
0100-01FF it Stack della CPU
0314-0315 en Vector: hardware IRQ interrupt
0314-0315 it Vettore: interrupt IRQ hardware
0800-0BFF en Color and luminance attributes
0800-0BFF it Attributi di colore e luminanza
0C00-0FFF en Video matrix
0C00-0FFF it Matrice video
8000-BFFF en BASIC ROM
8000-BFFF it ROM del BASIC
FD00-FD0F en ACIA 6551 registers
FD00-FD0F it Registri dell'ACIA 6551
FD10 en User port
FD10 it Porta utente
FD30 en Keyboard latch
FD30 it Latch della tastiera
FF06 en TED control register 1
FF06 it Registro di controllo 1 del TED
FF07 en TED control register 2
FF07 it Registro di controllo 2 del TED
FF0E en TED voice 1: frequency low byte
FF0E it TED voce 1: byte basso della frequenza
FF0F en TED voice 2: frequency low byte
FF0F it TED voce 2: byte basso della frequenza
FF11 en TED sound control and volume
FF11 it TED: controllo del suono e volume
FF12 en TED bitmap base and voice 1 frequency high bits
FF12 it TED: base bitmap e bit alti della frequenza della voce 1
FF13 en TED character base and clock select
FF13 it TED: base dei caratteri e selezione del clock
FF15 en Background color
FF15 it Colore di sfondo
FF19 en Border color
FF19 it Colore del bordo
FF1D en Raster line
FF1D it Linea di raster
FF3E en Select ROM
FF3E it Seleziona la ROM
FF3F en Select RAM
FF3F it Seleziona la RAM
FF00-FF3F en TED registers
FF00-FF3F it Registri del TED
FFD2 en CHROUT: output a character
FFD2 it CHROUT: stampa un carattere
FFE4 en GETIN: get a character
FFE4 it GETIN: preleva un carattere
C000-FCFF en KERNAL ROM
C000-FCFF it ROM del KERNAL
"

/-- Comments on the Atari 8-bit machines. -/
def atariComments : String :=
  "; Atari 400/800/XL/XE system comments.

0012-0014 en RTCLOK: real-time clock
0012-0014 it RTCLOK: orologio in tempo reale
0100-01FF en CPU stack
0100-01FF it Stack della CPU
0222-0223 en VVBLKI: immediate vertical blank vector
0222-0223 it VVBLKI: vettore del vertical blank immediato
0224-0225 en VVBLKD: deferred vertical blank vector
0224-0225 it VVBLKD: vettore del vertical blank differito
0230-0231 en SDLSTL: display list pointer (shadow)
0230-0231 it SDLSTL: puntatore alla display list (ombra)
02C4-02C7 en COLOR0-3: playfield colors (shadow)
02C4-02C7 it COLOR0-3: colori del playfield (ombra)
02C8 en COLOR4: background color (shadow)
02C8 it COLOR4: colore di sfondo (ombra)
D016-D019 en COLPF0-3: playfield colors
D016-D019 it COLPF0-3: colori del playfield
D01A en COLBK: background color
D01A it COLBK: colore di sfondo
D01F en CONSOL: console keys and speaker
D01F it CONSOL: tasti di console e altoparlante
D000-D015 en GTIA registers
D000-D015 it Registri del GTIA
D01B-D0FF en GTIA registers
D01B-D0FF it Registri del GTIA
D200 en AUDF1: audio channel 1 frequency
D200 it AUDF1: frequenza del canale audio 1
D201 en AUDC1: audio channel 1 control
D201 it AUDC1: controllo del canale audio 1
D208 en AUDCTL: audio control
D208 it AUDCTL: controllo audio
D20A en RANDOM: random number generator
D20A it RANDOM: generatore di numeri casuali
D20E en IRQEN/IRQST: interrupt enable and status
D20E it IRQEN/IRQST: abilitazione e stato degli interrupt
D200-D2FF en POKEY registers
D200-D2FF it Registri del POKEY
D300 en PORTA: joystick ports
D300 it PORTA: porte joystick
D301 en PORTB: memory management (XL/XE)
D301 it PORTB: gestione della memoria (XL/XE)
D300-D3FF en PIA registers
D300-D3FF it Registri del PIA
D400 en DMACTL: DMA control
D400 it DMACTL: controllo DMA
D402-D403 en DLISTL/DLISTH: display list pointer
D402-D403 it DLISTL/DLISTH: puntatore alla display list
D407 en PMBASE: player/missile base address
D407 it PMBASE: indirizzo base di player/missili
D409 en CHBASE: character set base address
D409 it CHBASE: indirizzo base del set di caratteri
D40A en WSYNC: wait for horizontal sync
D40A it WSYNC: attende la sincronia orizzontale
D40B en VCOUNT: vertical line counter
D40B it VCOUNT: contatore delle linee verticali
D40E en NMIEN: NMI enable
D40E it NMIEN: abilitazione NMI
D40F en NMIRES/NMIST: NMI reset and status
D40F it NMIRES/NMIST: reset e stato NMI
D400-D401 en ANTIC registers
D400-D401 it Registri dell'ANTIC
D404-D4FF en ANTIC registers
D404-D4FF it Registri dell'ANTIC
D800-FFFF en OS ROM
D800-FFFF it ROM del sistema operativo
"

/-- Comments on the Commodore 1541. -/
def drive1541Comments : String :=
  "; Commodore 1541 disk drive controller.

0000-0005 en Job queue for buffers 0-5
0000-0005 it Coda dei lavori per i buffer 0-5
0006-0011 en Track and sector for buffers 0-5
0006-0011 it Traccia e settore per i buffer 0-5
0100-01FF en CPU stack
0100-01FF it Stack della CPU
0300-03FF en Buffer 0
0300-03FF it Buffer 0
0400-04FF en Buffer 1
0400-04FF it Buffer 1
0500-05FF en Buffer 2
0500-05FF it Buffer 2
0600-06FF en Buffer 3
0600-06FF it Buffer 3
0700-07FF en Buffer 4
0700-07FF it Buffer 4
1800 en VIA 1: port B (serial bus)
1800 it VIA 1: porta B (bus seriale)
1801 en VIA 1: port A
1801 it VIA 1: porta A
180D en VIA 1: interrupt flag register
180D it VIA 1: registro dei flag di interrupt
1800-180F en VIA 1 registers
1800-180F it Registri del VIA 1
1C00 en VIA 2: port B (motor, LED, stepper, density)
1C00 it VIA 2: porta B (motore, LED, passo-passo, densita')
1C01 en VIA 2: port A (read/write head data)
1C01 it VIA 2: porta A (dati della testina)
1C0C en VIA 2: peripheral control register
1C0C it VIA 2: registro di controllo periferiche
1C00-1C0F en VIA 2 registers
1C00-1C0F it Registri del VIA 2
C000-FFFF en DOS ROM
C000-FFFF it ROM del DOS
"

/-- Comments on the Odyssey2. -/
def odyssey2Comments : String :=
  "; Magnavox Odyssey2 / Philips Videopac (Intel 8048 program memory).

0000 en Reset entry point
0000 it Punto di ingresso del reset
0003 en External interrupt entry (VDC)
0003 it Ingresso interrupt esterno (VDC)
0007 en Timer interrupt entry
0007 it Ingresso interrupt del timer
0000-03FF en Internal BIOS ROM
0000-03FF it ROM interna del BIOS
0400-0FFF en Cartridge ROM
0400-0FFF it ROM della cartuccia
"

/-- The comment file that comes with a platform, if it has one. -/
def bundledComments? : Platform → Option String
  | .generic => none
  | .c64 => some c64Comments
  | .c64StereoSid => some c64StereoSidComments
  | .c128 => some c128Comments
  | .vic20 => some vic20Comments
  | .plus4 => some plus4Comments
  | .atari => some atariComments
  | .drive1541 => some drive1541Comments
  | .odyssey2 => some odyssey2Comments

end RetroListing.Platform
