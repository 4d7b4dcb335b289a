import SimdDispatch.CommandLine.Arguments

/-!
The help texts of the program.
-/
namespace SimdDispatch.CommandLine

def programHelp : String :=
"Inspect and profile LaneKit kernel dispatch

Usage: lanekit [OPTIONS] <COMMAND>

Commands:
  info     Show detected capabilities, the selected machine and kernel bindings
  profile  Time every implementation the CPU can run and pick the fastest
  help     Print this message or the help of the given subcommand(s)

Options:
  -c, --config <CONFIG>  Configuration file, instead of `lanekit.toml` or `LANEKIT_CONFIG`
      --no-config        Ignore configuration files and environment, resolve automatically
  -h, --help             Print help
  -V, --version          Print version
"

def infoHelp : String :=
"Show detected capabilities, the selected machine and kernel bindings

Usage: lanekit info [OPTIONS]

Options:
      --all-machines     Also list every builtin machine table
  -c, --config <CONFIG>  Configuration file, instead of `lanekit.toml` or `LANEKIT_CONFIG`
      --json             Print the report as JSON
      --no-config        Ignore configuration files and environment, resolve automatically
  -h, --help             Print help
"

def profileHelp : String :=
"Time every implementation the CPU can run and pick the fastest

Usage: lanekit profile [OPTIONS]

Options:
  -c, --config <CONFIG>              Configuration file, instead of `lanekit.toml` or `LANEKIT_CONFIG`
  -i, --iterations <ITERATIONS>      Calls per variant [default: 1000]
      --no-config                    Ignore configuration files and environment, resolve automatically
  -p, --points <POINTS>              Elements per call [default: 131071]
      --json <JSON>                  Write the full report as JSON
      --write-config <WRITE_CONFIG>  Write a configuration file pinning the fastest variants
  -h, --help                         Print help
"

def helpHelp : String :=
"Print this message or the help of the given subcommand(s)

Usage: lanekit help [COMMAND]...

Arguments:
  [COMMAND]...  Print help for the subcommand(s)
"

def Topic.text : Topic → String
  | program => programHelp
  | info => infoHelp
  | profile => profileHelp
  | help => helpHelp

def versionText : String := "lanekit 0.3.0\n"

end SimdDispatch.CommandLine
