/-
Notes and rests of a Sidplayer voice. The first byte of the cell packs the length, dots and tie, the
second the letter, octave and accidental.
-/

namespace RetroListing.Voice

/-- What is shown for anything that has no meaning. -/
def unknownText : String := "???"

/-! ## Duration -/

/-- The part of a whole note that a note lasts. -/
inductive Length where
  | whole
  | half
  | quarter
  | eighth
  | sixteenth
  | thirtySecond
  | sixtyFourth
  deriving DecidableEq, Repr

def Length.text : Length → String
  | .whole => "WHOLE"
  | .half => "HALF"
  | .quarter => "QUARTER"
  | .eighth => "EIGHTH"
  | .sixteenth => "SIXTEENTH"
  | .thirtySecond => "THIRTY-SECOND"
  | .sixtyFourth => "SIXTY-FOURTH"

/-- The length with a three-bit code. -/
def Length.ofCode? : UInt8 → Option Length
  | 1 => some .whole
  | 2 => some .half
  | 3 => some .quarter
  | 4 => some .eighth
  | 5 => some .sixteenth
  | 6 => some .thirtySecond
  | _ => none

/-- The dots after a note. -/
inductive Dots where
  | none
  | one
  | two
  deriving DecidableEq, Repr

def Dots.text : Dots → String
  | .none => ""
  | .one => "DOTTED "
  | .two => "DOUBLE DOTTED "

/-- The dots in bits 7 and 5 of a cell's first byte; bit 7 alone means nothing. -/
def Dots.ofByte? (b : UInt8) : Option Dots :=
  match b &&& 0xA0 with
  | 0xA0 => some .two
  | 0x20 => some .one
  | 0x00 => some .none
  | _ => Option.none

/-- How long a note or rest lasts. -/
inductive Duration where
  | utility
  | utilityVoice
  | lasting (length : Length) (dots : Dots) (tied : Bool)
  | unknown
  deriving DecidableEq, Repr

namespace Duration

def text : Duration → String
  | .utility => "UTILITY"
  | .utilityVoice => "UTILITY VOICE"
  | .lasting length dots tied => length.text ++ " " ++ dots.text ++ if tied then "TIED" else ""
  | .unknown => unknownText

/-- The length in a cell's first byte; an undotted sixteenth stands for a sixty-fourth. -/
def length? (b : UInt8) : Option Length :=
  if b &&& 0x3C = 0x14 then some .sixtyFourth else Length.ofCode? ((b &&& 0x1C) >>> 2)

/-- The duration in a cell's first byte. -/
def ofByte (b : UInt8) : Duration :=
  if b &&& 0xBF = 0x04 then .utility
  else if b &&& 0xBF = 0x24 then .utilityVoice
  else
    match Dots.ofByte? b, length? b with
    | some dots, some length => .lasting length dots (b &&& 0x40 != 0)
    | _, _ => .unknown

end Duration

/-! ## Pitch -/

/-- The seven letters of the scale. -/
inductive Letter where
  | c
  | d
  | e
  | f
  | g
  | a
  | b
  deriving DecidableEq, Repr

def Letter.text : Letter → String
  | .c => "C"
  | .d => "D"
  | .e => "E"
  | .f => "F"
  | .g => "G"
  | .a => "A"
  | .b => "B"

/-- The letter in the three lowest bits of a cell's second byte; zero stands for silence. -/
def Letter.ofByte? (b : UInt8) : Option Letter :=
  match b &&& 0x07 with
  | 1 => some .c
  | 2 => some .d
  | 3 => some .e
  | 4 => some .f
  | 5 => some .g
  | 6 => some .a
  | 7 => some .b
  | _ => none

/-- What raises or lowers a letter. -/
inductive Accidental where
  | natural
  | sharp
  | flat
  | doubleSharp
  | doubleFlat
  deriving DecidableEq, Repr

namespace Accidental

def text : Accidental → String
  | .natural => ""
  | .sharp => "#"
  | .flat => "b"
  | .doubleSharp => "##"
  | .doubleFlat => "bb"

/-- The double accidental that a letter bears when its field is clear. -/
def double : Letter → Accidental
  | .d | .f | .g => .doubleSharp
  | .e | .a | .b => .doubleFlat
  | .c => .natural

/-- The accidental of a letter, from the two highest bits of the cell's second byte. -/
def ofByte (letter : Letter) (b : UInt8) : Accidental :=
  match b &&& 0xC0 with
  | 0x40 => .sharp
  | 0x80 => .flat
  | 0xC0 => .natural
  | _ => double letter

end Accidental

/-- The octave in bits 3 to 5 of a cell's second byte, which are stored inverted. -/
def octave (b : UInt8) : Nat := 7 - ((b &&& 0x38) >>> 3).toNat

/-! ## Notes -/

/-- What a note cell holds. -/
inductive Note where
  | absoluteSet
  | rest (duration : Duration)
  | tone (letter : Letter) (accidental : Accidental) (octave : Nat) (duration : Duration)
  deriving DecidableEq, Repr

namespace Note

def text : Note → String
  | .absoluteSet => "ABSOLUTE SET"
  | .rest duration => "REST " ++ duration.text
  | .tone letter accidental octave duration =>
    letter.text ++ accidental.text ++ "-" ++ toString octave ++ "  " ++ duration.text

/-- The note in the two bytes of a cell. -/
def ofBytes (b1 b2 : UInt8) : Note :=
  if b1 = 0 then .absoluteSet
  else
    match Letter.ofByte? b2 with
    | none => .rest (Duration.ofByte b1)
    | some letter => .tone letter (Accidental.ofByte letter b2) (octave b2) (Duration.ofByte b1)

end Note

end RetroListing.Voice
