/-!
# Usage

What the program tells about itself.
-/

namespace LedWall.Usage

def version : String := "ledwall 0.1.0"

def text : String := String.intercalate "\n" [
  "Sends frames to a Flaschen Taschen display",
  "",
  "Usage: ledwall [OPTIONS] <COMMAND>",
  "",
  "Commands:",
  "  clear        Send a blank frame on each of the first layers [--layers <N>]",
  "  pattern      Draw a test picture and send it once [--canvas | --remap]",
  "  stream       Stream an animation [--interval-ms <MS>] [--timeout-ms <MS>]",
  "               [--q7 | --raw] [--frames <N>]",
  "  save-config  Write the settings in force to the config file",
  "  help         Tell this",
  "",
  "Options:",
  "      --config <PATH>          Config file [env: FT_CONFIG]",
  "      --display <HOST[:PORT]>  Display server",
  "      --width <W>              Display width in pixels",
  "      --height <H>             Display height in pixels",
  "      --layer <Z>              Layer to draw on",
  "  -h, --help                   Tell this",
  "  -V, --version                Tell the version"]

def misuse : String := "error: unfit arguments\n\n" ++ text

end LedWall.Usage
