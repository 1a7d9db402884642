import SatLink.Config.Text
import SatLink.Tool.Run

/-!
# The program

Reads the configuration, draws a fresh initial counter, does the task and prints. The exit code is 0
when the task was done, 1 when it was not, and 2 for a command line that asks for none.
-/

namespace SatLink.Main

/-- Why a file was not read, with the number that the system gives the reason. -/
def reasonOf : IO.Error → String
  | .permissionDenied _ _ _ => "Permission denied (os error 13)"
  | .inappropriateType _ code details => s!"{details} (os error {code.toNat})"
  | e => toString e

/-- The bytes of the file at a path, if there is one. -/
def readFile (path : String) : IO (Except LinkError (Option ByteArray)) := do
  try
    pure (.ok (some (← IO.FS.readBinFile ⟨path⟩)))
  catch
    | .noFileOrDirectory _ _ _ => pure (.ok none)
    | e => pure (.error (.config (.unreadable path (reasonOf e))))

/-- The configuration at a path, or the standard one. -/
def readConfig : Option String → IO (Except LinkError Config)
  | none => pure (.ok .standard)
  | some path => do
      let content ← readFile path
      pure (content >>= Config.ofPath path)

end SatLink.Main

open SatLink

/-- Runs the tool. -/
def main (arguments : List String) : IO UInt32 := do
  match Tool.parse arguments with
  | .error .usage =>
      IO.eprint Tool.Page.overview.text
      pure 2
  | .error (.page page) =>
      IO.print page.text
      pure 0
  | .ok request =>
      let config ← Main.readConfig request.config
      let fresh ← IO.getRandomBytes 16
      let outcome := do
        Tool.run (← Tool.onLink config) (Block.fit 16 fresh.toList) request.task
      match outcome with
      | .ok text =>
          IO.print text
          pure 0
      | .error fault =>
          IO.eprint fault.report
          pure 1
