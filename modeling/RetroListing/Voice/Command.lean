/-
Commands of a Sidplayer voice. A command either switches something, or sets a quantity to a value
packed into the two bytes of its cell. Opcodes that name one command come before the masks, and of
the masks the first that fits decides.
-/
import RetroListing.Voice.Note

namespace RetroListing.Voice

/-- What a command cell holds. -/
inductive Command where
  | switch (setting : String)
  /-- A quantity with its value; a `doubtful` value is one that the player does not take. -/
  | set (quantity : String) (value : Int) (doubtful : Bool := false)
  | unknown
  deriving DecidableEq, Repr

namespace Command

def text : Command → String
  | .switch setting => setting
  | .set quantity value doubtful =>
    quantity ++ " " ++ toString value ++ if doubtful then " " ++ unknownText else ""
  | .unknown => unknownText

/-! ## Tempo -/

/-- The tempo with a five-bit index: 1800 divided by the index, which is 32 for zero, rounded to
the nearest whole number with a half going up. -/
def tempo (index : Nat) : Nat :=
  let divisor := if index = 0 then 32 else index
  (2 * 1800 + divisor) / (2 * divisor)

/-- The tempo command; the three lowest bits of its second byte must be clear. -/
def ofTempo (b2 : UInt8) : Command :=
  if b2 &&& 0x07 = 0 then .set "TEMPO: SET" (tempo (b2 >>> 3).toNat) else .unknown

/-! ## Volume and effects -/

/-- The settings chosen by the high half of the second byte when its low half is 8. -/
def waveSettings : List String :=
  ["WAVEFORM: NOISE", "WAVEFORM: TRIANGLE", "WAVEFORM: SAWTOOTH", "WAVEFORM: PULSE",
    "SYNC: ON", "SYNC: OFF", "RING: ON", "RING: OFF", "FILTER: MODE OFF", "FILTER: MODE LOW",
    "FILTER: MODE BAND", "FILTER: MODE LOW+BAND", "FILTER: MODE HIGH", "FILTER: MODE LOW+HIGH",
    "FILTER: MODE BAND+HIGH", "FILTER: MODE ALL"]

/-- The settings chosen by the high half of the second byte when its low half is 0. -/
def flowSettings : List String :=
  ["FILTER: THROUGH ON", "FILTER: THROUGH OFF", "FILTER: EXTERNAL ON", "FILTER: EXTERNAL OFF",
    "VOLUME: BUMP UP", "VOLUME: BUMP DOWN", "PHRASE: END", "MUSIC: HALT", "SOURCE: NONE",
    "SOURCE: OSCILLATOR 3", "SOURCE: ENVELOPE 3", "DESTINATION: NONE", "DESTINATION: PITCH",
    "DESTINATION: PULSE WIDTH", "DESTINATION: FILTER CUTOFF", "VOICE 3: OFF"]

/-- The setting at a place of a list of settings. -/
def ofSetting (settings : List String) (index : Nat) : Command :=
  (settings[index]?).elim .unknown .switch

/-- The volume and effects command; the low half of its second byte chooses the effect. -/
def ofEffect (b2 : UInt8) : Command :=
  let level : Nat := (b2 >>> 4).toNat
  let rate : Nat := (b2 >>> 3).toNat
  match b2 &&& 0x0F with
  | 0x0E => .set "VOLUME: SET" level
  | 0x06 => .set "ATTACK: SET" level
  | 0x0A => .set "DECAY: SET" level
  | 0x02 => .set "SUSTAIN: SET" level
  | 0x0C => .set "RELEASE: SET" level
  | 0x04 => .set "RESONANCE: SET" level
  | 0x01 => .set "PHRASE: DEFINE" level
  | 0x03 => .set "PHRASE: CALL" level
  | 0x05 | 0x0D => .set "LFO RATE: DOWN" rate
  | 0x07 | 0x0F => .set "LFO RATE: UP" rate
  | 0x08 => ofSetting waveSettings level
  | 0x00 => ofSetting flowSettings level
  | _ => .unknown

/-! ## Parameters -/

/-- How the second byte of a parameter command is read. -/
inductive Reading where
  /-- An unsigned value on top of a base. -/
  | above (base : Nat)
  /-- A signed value. -/
  | signed
  /-- A signed value that is doubtful below zero. -/
  | depth
  deriving DecidableEq, Repr

/-- The commands with an opcode of their own, whose second byte is the value. -/
def parameters : List (UInt8 × String × Reading) :=
  [(0x36, "HOLD: SET", .above 0), (0x26, "UTILITY: DURATION", .above 0),
    (0x4E, "FILTER: CUTOFF", .above 0), (0x56, "TRANSPOSE: HALF STEPS", .signed),
    (0xC6, "PULSE VIBRATO: DEPTH", .depth), (0xD6, "VIBRATO: DEPTH", .depth),
    (0x76, "FILTER VIBRATO: DEPTH", .depth), (0x86, "AUTO FILTER: SWEEP", .depth),
    (0x96, "AUTO PULSE: SWEEP", .signed), (0x0E, "REPEAT: TIMES", .above 0),
    (0x66, "FILTER: CUTOFF BUMP", .signed), (0x6E, "DETUNE: BUMP", .signed),
    (0xE6, "SCALE: SET", .above 1), (0x1E, "MEASURE:", .above 0), (0x5E, "MEASURE:", .above 256),
    (0x9E, "MEASURE:", .above 512), (0xDE, "MEASURE:", .above 768),
    (0xF6, "VIBRATO: RATE", .above 0), (0x46, "PULSE VIBRATO: RATE", .above 0),
    (0xB6, "FILTER VIBRATO: RATE", .above 0), (0xA6, "MAX VOLUME: SET", .above 0),
    (0x2E, "FLAG: SET", .above 0)]

/-- A byte as a signed number. -/
def signedByte (b : UInt8) : Int := if b < 0x80 then b.toNat else (b.toNat : Int) - 256

/-- The command that sets `quantity` to the value in a byte. -/
def ofParameter (quantity : String) (reading : Reading) (b2 : UInt8) : Command :=
  match reading with
  | .above base => .set quantity (base + b2.toNat : Nat)
  | .signed => .set quantity (signedByte b2)
  | .depth => .set quantity (signedByte b2) (0x80 ≤ b2)

/-! ## Masks -/

/-- The bits of `b1` under `mask` put `shift` places above the second byte. -/
def packed (b1 mask : UInt8) (shift : UInt16) (b2 : UInt8) : Nat :=
  ((b1 &&& mask).toUInt16 <<< shift ||| b2.toUInt16).toNat

/-- The commands whose value runs over into the first byte. -/
def ofMask (b1 b2 : UInt8) : Command :=
  if b1 &&& 0x0F = 0x02 then .set "PULSE WIDTH: SET" (packed b1 0xF0 4 b2)
  else if b1 &&& 0x03 = 0x03 then .set "PORTAMENTO: SET" (packed b1 0xFC 6 b2)
  else if b1 &&& 0x1F = 0x1A then .set "DETUNE: SET" ((packed b1 0xE0 3 b2 : Int) - 2048)
  else if b1 &&& 0x1F = 0x0A then .set "DETUNE: SET" (packed b1 0xE0 3 b2)
  else if b1 &&& 0x30 = 0x30 then .set "JIFFY LENGTH: SET" ((packed b1 0xC0 2 b2 : Int) - 200)
  else .unknown

/-! ## Cells -/

/-- The command in the two bytes of a cell. -/
def ofBytes (b1 b2 : UInt8) : Command :=
  if b1 = 0x06 then ofTempo b2
  else if b1 = 0x01 then ofEffect b2
  else
    match parameters.lookup b1 with
    | some (quantity, reading) => ofParameter quantity reading b2
    | none => ofMask b1 b2

end Command

end RetroListing.Voice
