/-
Transcripts of Sidplayer voices: one line for each cell of two bytes, and one for a byte left over.
-/
import RetroListing.Listing.Line
import RetroListing.Listing.Window
import RetroListing.Voice.Cell

namespace RetroListing.Transcript

/-- The line at a place with address `pc`. It shows the bytes of the token there, at least one and none past the
end. -/
def lineAt : Piece.Reader Line := fun place h pc =>
  let token := Voice.Token.ofBytes place.ahead
  .clamp h token.width (.cell pc · token.text)

/-- The transcript of the part of a buffer that a window shows. -/
def lines (w : Window) : List Line := w.scan lineAt

end RetroListing.Transcript
