/-
The machines whose memory the bundled comments describe.
-/
import RetroListing.Cpu.Basic
import RetroListing.Text.Case

namespace RetroListing

/-- A machine. -/
inductive Platform where
  | generic
  | c64
  | c64StereoSid
  | c128
  | vic20
  | plus4
  | atari
  | drive1541
  | odyssey2
  deriving DecidableEq, Repr

namespace Platform

/-- Every platform, each after the one it inherits from. -/
def all : List Platform :=
  [.generic, .c64, .c64StereoSid, .c128, .vic20, .plus4, .atari, .drive1541, .odyssey2]

/-- The short name used on the command line. -/
def slug : Platform → String
  | .generic => "generic"
  | .c64 => "c64"
  | .c64StereoSid => "c64-stereo-sid"
  | .c128 => "c128"
  | .vic20 => "vic20"
  | .plus4 => "plus4"
  | .atari => "atari"
  | .drive1541 => "1541"
  | .odyssey2 => "odyssey2"

/-- The name shown to a reader. -/
def name : Platform → String
  | .generic => "Generic"
  | .c64 => "Commodore 64"
  | .c64StereoSid => "Commodore 64 (stereo SID)"
  | .c128 => "Commodore 128"
  | .vic20 => "Commodore VIC-20"
  | .plus4 => "Commodore Plus4"
  | .atari => "Atari 8-bit"
  | .drive1541 => "Commodore 1541"
  | .odyssey2 => "Odyssey2"

/-- The processor of the platform. -/
def cpu : Platform → Cpu
  | .odyssey2 => .intel8048
  | _ => .mos6502

/-- The platform whose comments this one inherits. -/
def parent? : Platform → Option Platform
  | .generic => none
  | .c64StereoSid => some .c64
  | _ => some .generic

/-- The platform with a short or full name, in either letter case. -/
def ofText? (text : String) : Option Platform :=
  all.find? fun p => Text.sameName p.slug text || Text.sameName p.name text

/-- What is said of a text that names no platform. -/
def unknownMessage (text : String) : String :=
  "Unknown platform '" ++ text ++ "' (known: " ++ String.intercalate ", " (all.map slug) ++ ")"

/-! ## Order -/

/-- The place in `all`. -/
def rank : Platform → Nat
  | .generic => 0
  | .c64 => 1
  | .c64StereoSid => 2
  | .c128 => 3
  | .vic20 => 4
  | .plus4 => 5
  | .atari => 6
  | .drive1541 => 7
  | .odyssey2 => 8

instance : Ord Platform := ⟨compareOn rank⟩

instance : Std.TransOrd Platform := inferInstanceAs (Std.TransCmp (compareOn rank))

instance : Std.LawfulEqOrd Platform where
  eq_of_compare {a b} := by cases a <;> cases b <;> decide

end Platform

end RetroListing
