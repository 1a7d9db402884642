import SatLink.Aes.Cipher
import SatLink.Aes.Counter
import SatLink.Aes.Gcm
import SatLink.Bit.Cursor
import SatLink.Block
import SatLink.Buffer
import SatLink.Cipher
import SatLink.Command.Basic
import SatLink.Command.Text
import SatLink.Command.Wire
import SatLink.Config.Basic
import SatLink.Config.Text
import SatLink.Decimal.Binary32
import SatLink.Decimal.Shortest
import SatLink.Downlink.Encoder
import SatLink.Downlink.Frame
import SatLink.Error
import SatLink.Frame.Address
import SatLink.Frame.Control
import SatLink.Frame.Fcs
import SatLink.Frame.Layout
import SatLink.Frame.Stuffing
import SatLink.Galois
import SatLink.Main
import SatLink.Pipe
import SatLink.Proofs.Galois.Field
import SatLink.Proofs.Galois.Polynomial
import SatLink.Queue
import SatLink.ReedSolomon.Code
import SatLink.ReedSolomon.Decode
import SatLink.ReedSolomon.Locator
import SatLink.Satellite.Basic
import SatLink.Satellite.Radio
import SatLink.Satellite.Rehearsal
import SatLink.Session.Manager
import SatLink.Session.State
import SatLink.Session.Table
import SatLink.Station
import SatLink.Telemetry.Basic
import SatLink.Telemetry.Packer
import SatLink.Telemetry.Source
import SatLink.Telemetry.Wire
import SatLink.Text.Blank
import SatLink.Text.Hex
import SatLink.Text.Numeral
import SatLink.Text.Pieces
import SatLink.Text.Quoted
import SatLink.Text.Unprinted
import SatLink.Timer
import SatLink.Toml.Document
import SatLink.Toml.Quoted
import SatLink.Toml.Scalar
import SatLink.Toml.Text
import SatLink.Toml.Value
import SatLink.Tool.Arguments
import SatLink.Tool.Listing
import SatLink.Tool.Page
import SatLink.Tool.Run
import SatLink.Uplink.Accumulator
import SatLink.Uplink.Decoder
import SatLink.Uplink.Flow
import SatLink.Wire
import SatLink.Proofs.ReedSolomon.Recurrence
import SatLink.Proofs.ReedSolomon.Shortest
import SatLink.Proofs.Difference
import SatLink.Proofs.ReedSolomon.Codeword
import SatLink.Proofs.ReedSolomon.Systematic
import SatLink.Proofs.ReedSolomon.Damage
import SatLink.Proofs.ReedSolomon.Correction
import SatLink.Proofs.Frame.Layout
import SatLink.Proofs.Frame.Expansion
import SatLink.Proofs.Uplink.Deframe
import SatLink.Proofs.Bit.Cursor
import SatLink.Proofs.Bit.Copying
import SatLink.Proofs.Frame.Runs
import SatLink.Proofs.Frame.Stuffing
import SatLink.Proofs.Frame.Region
import SatLink.Proofs.Cipher
import SatLink.Proofs.Sealing
import SatLink.Proofs.Command.RoundTrip
import SatLink.Proofs.Config.Addresses
import SatLink.Proofs.Uplink.RoundTrip
import SatLink.Proofs.Command.Canonical
import SatLink.Proofs.Telemetry.Packer
import SatLink.Proofs.Downlink.Delivery
import SatLink.Proofs.Downlink.Numbering
import SatLink.Proofs.Telemetry.RoundTrip
import SatLink.Proofs.Telemetry.Canonical
import SatLink.Proofs.Telemetry.Blocks
import SatLink.Proofs.Telemetry.Pieces
import SatLink.Proofs.Uplink.Accumulator
import SatLink.Proofs.Uplink.Segments
import SatLink.Proofs.Uplink.Timeouts
import SatLink.Proofs.Uplink.Stream
import SatLink.Proofs.Session.Listening
import SatLink.Proofs.Frame.BitErrors
import SatLink.Proofs.Frame.Fcs
import SatLink.Proofs.Frame.Detection
import SatLink.Proofs.Uplink.BitErrors
import SatLink.Proofs.Uplink.Echo
import SatLink.Proofs.Satellite.Turns
import SatLink.Proofs.Satellite.Pass
import SatLink.Proofs.Session.Activities
import SatLink.Proofs.Session.Retries
import SatLink.Proofs.Satellite.Histories
import SatLink.Proofs.Satellite.Visits
import SatLink.Proofs.Satellite.Commands
import SatLink.Proofs.Satellite.Completions
import SatLink.Proofs.Satellite.Emergency
import SatLink.Proofs.Indexed.Machine
import SatLink.Proofs.Indexed.Unstuffing
import SatLink.Proofs.Indexed.Field
import SatLink.Proofs.Indexed.Locator
import SatLink.Proofs.Indexed.Correction
import SatLink.Proofs.Indexed.Frame
import SatLink.Proofs.Indexed.Records
import SatLink.Proofs.Indexed.Receiving
import SatLink.Proofs.Aes.Field
import SatLink.Proofs.Aes.Tag
import SatLink.Proofs.Tampering
import SatLink.Proofs.Text
import SatLink.Proofs.Command.Text
import SatLink.Proofs.Overwriting
import SatLink.Proofs.InPlace.Machine
import SatLink.Proofs.InPlace.Records
import SatLink.Proofs.InPlace.Stuffing
import SatLink.Proofs.InPlace.Refusals
import SatLink.Proofs.Uplink.Receiver
