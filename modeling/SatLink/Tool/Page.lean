/-!
# Help pages

What the tool prints when it is asked about itself.
-/

namespace SatLink.Tool

/-- The texts that a command line can ask for. -/
inductive Page where
  | overview
  | encode
  | control
  | decode
  | decodeDownlink
  | help
  | version
  deriving DecidableEq

namespace Page

/-- The lines of a page. -/
def lines : Page → List String
  | .overview =>
      ["Encode and decode OBC link frames",
        "",
        "Usage: ground_station [OPTIONS] <COMMAND>",
        "",
        "Commands:",
        "  encode           Pack commands into one encoded uplink frame, printed as hex",
        "  control          Encode a connection-control frame",
        "  decode           Decode an uplink frame the way the satellite does",
        "  decode-downlink  Decode a telemetry frame sent by the satellite",
        "  help             Print this message or the help of the given subcommand(s)",
        "",
        "Options:",
        "  -c, --config <CONFIG>  Link configuration (TOML), defaults are used when omitted",
        "  -h, --help             Print help",
        "  -V, --version          Print version"]
  | .encode =>
      ["Pack commands into one encoded uplink frame, printed as hex",
        "",
        "Usage: ground_station encode [OPTIONS] <COMMANDS>...",
        "",
        "Arguments:",
        "  <COMMANDS>...  Commands such as `ping`, `rtc-sync=<unix>`, " ++
          "`download-data=<session>,<length>,<address>`",
        "",
        "Options:",
        "      --at <AT>  Time-tag every command for this unix time",
        "      --iv <IV>  AES IV as 32 hex digits, random when omitted",
        "  -h, --help     Print help"]
  | .control =>
      ["Encode a connection-control frame",
        "",
        "Usage: ground_station control <KIND>",
        "",
        "Arguments:",
        "  <KIND>  [possible values: conn, disc, ack]",
        "",
        "Options:",
        "  -h, --help  Print help"]
  | .decode =>
      ["Decode an uplink frame the way the satellite does",
        "",
        "Usage: ground_station decode <FRAME>",
        "",
        "Arguments:",
        "  <FRAME>  ",
        "",
        "Options:",
        "  -h, --help  Print help"]
  | .decodeDownlink =>
      ["Decode a telemetry frame sent by the satellite",
        "",
        "Usage: ground_station decode-downlink <FRAME>",
        "",
        "Arguments:",
        "  <FRAME>  ",
        "",
        "Options:",
        "  -h, --help  Print help"]
  | .help =>
      ["Print this message or the help of the given subcommand(s)",
        "",
        "Usage: ground_station help [COMMAND]...",
        "",
        "Arguments:",
        "  [COMMAND]...  Print help for the subcommand(s)"]
  | .version => ["ground_station 0.1.0"]

/-- The text of a page. -/
def text (p : Page) : String := String.join (p.lines.map (· ++ "\n"))

end Page

end SatLink.Tool
