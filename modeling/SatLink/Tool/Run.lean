import SatLink.Command.Text
import SatLink.Text.Hex
import SatLink.Tool.Arguments
import SatLink.Tool.Listing

/-!
# What the tool does

A task turns into the text that is printed, or into a fault. The tool works for the ground station;
only `decode` takes the satellite's side.
-/

namespace SatLink.Tool

/-! ## 1. Faults -/

/-- Why a task was not done. -/
inductive Fault where
  | link (error : LinkError)
  | command (fault : Command.TextFault)
  | ivText (fault : Text.Hex.Fault)
  | ivLength
  | frameText (fault : Text.Hex.Fault)
  deriving DecidableEq

/-- The wording of a fault of hexadecimal text; a byte stands for the character of its number. -/
def hexMessage : Text.Hex.Fault → String
  | .oddLength => "Odd number of digits"
  | .badDigit byte position =>
      "Invalid character " ++ Text.quotedChar (Char.ofNat byte.toNat) ++ " at position " ++
        toString position

namespace Fault

/-- The wording of a fault. -/
def message : Fault → String
  | .link error => error.message
  | .command fault => fault.message
  | .ivText _ => "IV is not valid hex"
  | .ivLength => s!"IV must be {Cipher.ivLength} bytes"
  | .frameText _ => "frame is not valid hex"

/-- The wording of what is behind a fault. -/
def cause? : Fault → Option String
  | .command fault => fault.cause?
  | .ivText fault => some (hexMessage fault)
  | .frameText fault => some (hexMessage fault)
  | _ => none

/-- What is printed about a fault. -/
def report (f : Fault) : String :=
  match f.cause? with
  | none => "Error: " ++ f.message ++ "\n"
  | some cause => "Error: " ++ f.message ++ "\n\nCaused by:\n    " ++ cause ++ "\n"

end Fault

/-! ## 2. Tasks -/

/-- The outcome of a step of the link. -/
def onLink {α : Type} (r : Except LinkError α) : Except Fault α := r.mapError .link

/-- A command, for a time or for receipt. -/
def commandAt (time : Option UInt32) (text : String) : Except Fault Command := do
  let action ← (Command.Action.ofText text).mapError Fault.command
  pure (match time with
    | some time => .scheduled action time
    | none => .immediate action)

/-- The initial counter: a fresh one, if none is given. -/
def chooseIv (fresh : Block 16) : Option String → Except Fault (Block 16)
  | none => pure fresh
  | some text => do
      let bytes ← (Text.Hex.decode text).mapError Fault.ivText
      match Block.ofList? 16 bytes with
      | some iv => pure iv
      | none => throw .ivLength

/-- The bytes of a frame, which may have white space around it. -/
def frameBytes (text : String) : Except Fault (List UInt8) :=
  (Text.Hex.decode (Text.trim text)).mapError .frameText

/-- Does a task under a configuration; `fresh` is the initial counter if the task names none. -/
def run (c : Config) (fresh : Block 16) (task : Task) : Except Fault String := do
  let ground ← onLink (Uplink.Flow.ofConfig c .groundStation)
  let hexLine := fun (frame : List UInt8) => linesText [Text.Hex.encode frame]
  match task with
  | .encode texts time iv =>
      let commands ← texts.mapM (commandAt time)
      let iv ← chooseIv fresh iv
      pure (hexLine (← onLink (ground.encodeCommands commands iv)))
  | .control command => pure (hexLine (← onLink (ground.encodeControl command true)))
  | .decode text =>
      let frame ← frameBytes text
      let satellite ← onLink (Uplink.Flow.ofConfig c .cubesat)
      pure (linesText (uplinkLines (← onLink (satellite.decodePacket frame))))
  | .decodeDownlink text =>
      let frame ← frameBytes text
      pure (linesText (downlinkLines (← onLink (Downlink.decodeFrame ground.addresses frame))))

end SatLink.Tool
