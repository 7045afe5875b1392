/-
Named windows of a platform's memory. The comments on a window can be switched off; where windows
overlap the one declared first decides.
-/
import RetroListing.Platform.Basic

namespace RetroListing

/-- A named window of addresses from `start` up to, not including, `stop`. -/
structure Region where
  name : String
  start : Nat
  stop : Nat
  enabled : Bool := true
  deriving DecidableEq, Repr

namespace Region

def contains (r : Region) (address : UInt16) : Bool :=
  r.start ≤ address.toNat && address.toNat < r.stop

/-- Whether the comments at an address are shown: the first region that contains it decides, and an
address in none is shown. -/
def visible (regions : List Region) (address : UInt16) : Bool :=
  ((regions.find? (·.contains address)).map (·.enabled)).getD true

/-- Switches the first region called `name`, in either letter case; `none` if there is none. -/
def switch? (name : String) (enabled : Bool) : List Region → Option (List Region)
  | [] => none
  | r :: rest =>
    if Text.sameName r.name name then some ({ r with enabled } :: rest)
    else (switch? name enabled rest).map (r :: ·)

end Region

namespace Platform

/-- The bounds of the regions of a platform. -/
def regionBounds : Platform → List (String × Nat × Nat)
  | .generic => []
  | .c64 =>
    [("zero page", 0x0000, 0x0100), ("stack area", 0x0100, 0x0200),
      ("system area", 0x0200, 0x0400), ("video matrix", 0x0400, 0x0800),
      ("BASIC ROM", 0xA000, 0xC000), ("VIC-II", 0xD000, 0xD400), ("SID", 0xD400, 0xD800),
      ("color RAM", 0xD800, 0xDC00), ("CIA 1", 0xDC00, 0xDD00), ("CIA 2", 0xDD00, 0xDE00),
      ("I/O block 1", 0xDE00, 0xDF00), ("I/O block 2", 0xDF00, 0xE000),
      ("KERNAL ROM", 0xE000, 0x10000)]
  | .c64StereoSid => [("second SID", 0xD420, 0xD440)]
  | .c128 =>
    [("zero page", 0x0000, 0x0100), ("stack area", 0x0100, 0x0200),
      ("system area", 0x0200, 0x0400), ("video matrix", 0x0400, 0x0800),
      ("VIC-IIe", 0xD000, 0xD400), ("SID", 0xD400, 0xD500), ("MMU", 0xD500, 0xD600),
      ("VDC", 0xD600, 0xD700), ("color RAM", 0xD800, 0xDC00), ("CIA 1", 0xDC00, 0xDD00),
      ("CIA 2", 0xDD00, 0xDE00), ("I/O block 1", 0xDE00, 0xDF00),
      ("I/O block 2", 0xDF00, 0xE000), ("KERNAL ROM", 0xE000, 0x10000)]
  | .vic20 =>
    [("zero page", 0x0000, 0x0100), ("stack area", 0x0100, 0x0200),
      ("system area", 0x0200, 0x0400), ("VIC", 0x9000, 0x9010), ("VIA 1", 0x9110, 0x9120),
      ("VIA 2", 0x9120, 0x9130), ("color RAM", 0x9400, 0x9800), ("I/O block 2", 0x9800, 0x9C00),
      ("I/O block 3", 0x9C00, 0xA000), ("BASIC ROM", 0xC000, 0xE000),
      ("KERNAL ROM", 0xE000, 0x10000)]
  | .plus4 =>
    [("zero page", 0x0000, 0x0100), ("stack area", 0x0100, 0x0200),
      ("system area", 0x0200, 0x0800), ("video matrix", 0x0800, 0x1000),
      ("BASIC ROM", 0x8000, 0xC000), ("ACIA", 0xFD00, 0xFD10), ("user port", 0xFD10, 0xFD20),
      ("keyboard latch", 0xFD30, 0xFD40), ("TED", 0xFF00, 0xFF40),
      ("KERNAL ROM", 0xC000, 0x10000)]
  | .atari =>
    [("zero page", 0x0000, 0x0100), ("stack area", 0x0100, 0x0200),
      ("OS shadow area", 0x0200, 0x0400), ("GTIA", 0xD000, 0xD100), ("POKEY", 0xD200, 0xD300),
      ("PIA", 0xD300, 0xD400), ("ANTIC", 0xD400, 0xD500), ("OS ROM", 0xD800, 0x10000)]
  | .drive1541 =>
    [("zero page", 0x0000, 0x0100), ("stack area", 0x0100, 0x0200), ("buffers", 0x0300, 0x0800),
      ("VIA 1", 0x1800, 0x1810), ("VIA 2", 0x1C00, 0x1C10), ("DOS ROM", 0xC000, 0x10000)]
  | .odyssey2 => [("BIOS ROM", 0x0000, 0x0400), ("cartridge ROM", 0x0400, 0x1000)]

/-- The regions of a platform, all of them shown. -/
def regions (p : Platform) : List Region :=
  p.regionBounds.map fun (name, start, stop) => { name, start, stop }

end Platform

end RetroListing
