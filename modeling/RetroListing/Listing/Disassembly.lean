/-
Annotated disassembly. The bytes are cut into steps, one for each instruction that the decoder finds
and one for each byte where it finds none; then every step becomes a line with the comment that the
registry has on its operand.
-/
import RetroListing.Cpu.Decoder
import RetroListing.Listing.Line
import RetroListing.Listing.Window
import RetroListing.Profile.Registry

namespace RetroListing.Disassembly

/-! ## Steps -/

/-- A piece of a disassembly. -/
inductive Step where
  | instruction (address : UInt16) (bytes : List UInt8) (i : Instruction)
  /-- A byte where the decoder finds no instruction. -/
  | data (address : UInt16) (byte : UInt8)
  deriving DecidableEq, Repr

/-- The step at a place with address `pc`. An instruction takes the byte it starts with, whatever its width, and no
byte past the end. -/
def stepAt (d : Decoder) : Piece.Reader Step := fun place h pc =>
  match d.decode place pc with
  | some i => .clamp h i.width (.instruction pc · i)
  | none => ⟨.data pc (place.ahead.head h), 1, Nat.one_pos, List.length_pos_iff.2 h⟩

/-- The operand of a step, if it is an instruction. -/
def Step.operand? : Step → Option Operand
  | .instruction _ _ i => some i.operand
  | .data .. => none

/-- The line that shows a step, given the comments on operands. -/
def Step.line (comment? : Operand → Option String) : Step → Line
  | .instruction address bytes i =>
    .instruction address bytes i.mnemonic i.operandText ((comment? i.operand).getD "")
  | .data address byte => .data address byte

/-! ## Listings -/

/-- Why a listing cannot be made. -/
inductive Error where
  | unknownProfile (id : ProfileId)
  | wrongCpu (id : ProfileId) (profile decoder : Cpu)
  deriving DecidableEq, Repr

def Error.message : Error → String
  | .unknownProfile id => "Unknown profile " ++ id.name
  | .wrongCpu id profile decoder =>
    "Profile " ++ id.name ++ " runs on the " ++ profile.name ++ " but the decoder handles the " ++
      decoder.name

/-- The steps of the part of a buffer that a window shows. -/
def windowSteps (d : Decoder) (w : Window) : List Step := w.scan (stepAt d)

/-- The reader of a listing: whose comments to show, and in which language. -/
structure View where
  registry : Registry
  profile : ProfileId
  language : Language

namespace View

/-- Why the view cannot show what a decoder finds. -/
def error? (v : View) (d : Decoder) : Option Error :=
  match v.registry.get? v.profile with
  | none => some (.unknownProfile v.profile)
  | some p => if p.cpu = d.cpu then none else some (.wrongCpu v.profile p.cpu d.cpu)

/-- The comment on an operand. -/
def comment? (v : View) (operand : Operand) : Option String :=
  v.registry.resolve v.profile operand v.language

/-- The listing of the part of a buffer that a window shows. -/
def listing (v : View) (d : Decoder) (w : Window) : Except Error (List Line) :=
  match v.error? d with
  | some e => .error e
  | none => .ok ((windowSteps d w).map (·.line v.comment?))

/-- The notices that a listing gives. -/
def listingLog (v : View) (d : Decoder) (w : Window) : List Notice :=
  match v.error? d with
  | some _ => []
  | none =>
    let steps := windowSteps d w
    w.log ++
      (steps.filterMap (·.operand?)).flatMap (v.registry.resolveLog v.profile · v.language) ++
      [⟨.debug, "Scanned " ++ toString steps.length ++ " lines for " ++ v.profile.name ++ " (" ++
        v.language.name ++ ")"⟩]

end View

end RetroListing.Disassembly
