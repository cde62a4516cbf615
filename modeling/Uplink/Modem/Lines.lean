import Uplink.Text.Utf8

/-!
# Lines of a stream

A stream is received in chunks and cut at its newlines.  Carriage returns at the end of a line do
not belong to it, and lines without any other character are dropped.
-/

namespace Uplink
namespace Modem

/-- The bytes of the line that is not complete yet, last first. -/
structure LineBuffer where
  /-- The bytes, last first. -/
  held : List UInt8 := []
  deriving DecidableEq, Repr, Inhabited

namespace LineBuffer

/-- The text of a complete line whose bytes are given last first. -/
def lineText (held : List UInt8) : String :=
  String.ofList (((Text.lossy held.reverse).toList.reverse.dropWhile (· = '\r')).reverse)

/-- Take one byte; `found` holds the lines so far, last first. -/
def step (now : LineBuffer × List String) (b : UInt8) : LineBuffer × List String :=
  if b = 10 then
    let line := lineText now.1.held
    (⟨[]⟩, if line.isEmpty then now.2 else line :: now.2)
  else (⟨b :: now.1.held⟩, now.2)

/-- Take a chunk: the buffer afterwards and the lines that the chunk completes. -/
def push (buffer : LineBuffer) (chunk : List UInt8) : LineBuffer × List String :=
  let last := chunk.foldl step (buffer, [])
  (last.1, last.2.reverse)

end LineBuffer
end Modem
end Uplink
