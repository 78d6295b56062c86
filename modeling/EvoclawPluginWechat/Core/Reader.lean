import EvoclawPluginWechat.Core.Bridge
import EvoclawPluginWechat.Core.Crypto

/-!
The reader task of `Bridge::spawn` over the bytes the subprocess writes to stdout, while no
other task runs.
-/
namespace EvoclawPluginWechat
namespace Bridge

/-- `Lines::next_line` on the bytes before a newline; `none` is its error, for bytes that are
not UTF-8. -/
def nextLine (frame : List UInt8) : Option String :=
  fromUtf8 (if frame.getLast? = some 13 then frame.dropLast else frame)

variable {ι : Type} [DecidableEq ι]

/-- What the task does after its loop. -/
def endReader (s : Bridge ι) : Bridge ι :=
  { { s with alive := false }.clear with reader := .finished }

/-- One round of the loop. -/
def readFrame (W : Wire) (s : Bridge ι) (frame : List UInt8) : Bridge ι :=
  if s.reader = .reading then
    match nextLine frame with
    | some line => (s.step W (.readLine line)).getD s
    -- the pattern `Ok(Some(line))` does not match
    | none => s.endReader
  else s

def readFrames (W : Wire) (s : Bridge ι) (frames : List (List UInt8)) : Bridge ι :=
  frames.foldl (readFrame W) s

/-- The bytes after the last newline are not read yet. -/
def readStdout (W : Wire) (s : Bridge ι) (bytes : List UInt8) : Bridge ι :=
  s.readFrames W (Framing.frames newlineByte bytes)

end Bridge
end EvoclawPluginWechat
