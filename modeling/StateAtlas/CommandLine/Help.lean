set_option autoImplicit false

/-!
# The help text of the command line

## Main definitions

* `StateAtlas.commandName` — what the program is called.
* `StateAtlas.usageText` — how it is called, for messages.
* `StateAtlas.helpText` — how it is called and what the options mean.
-/

namespace StateAtlas

/-- What the program is called in its messages. -/
def commandName : String := "statelabel"

/-- How the program is called. -/
def usageText : String :=
  "usage: statelabel [-h] [-c CONFIG] [-o OUTPUT_DIR] [--format \x7btext,dot,both\x7d]\n" ++
  "                  [--depth-limit DEPTH_LIMIT] [--max-states MAX_STATES]\n" ++
  "                  [--verbose]\n" ++
  "                  target\n"

/-- How the program is called, and what it and its options do. -/
def helpText : String :=
  usageText ++
  "\nExplore a Python program's state space and label its states\n" ++
  "\npositional arguments:\n" ++
  "  target                Python program to explore\n" ++
  "\noptions:\n" ++
  "  -h, --help            show this help message and exit\n" ++
  "  -c CONFIG, --config CONFIG\n" ++
  "                        YAML label configuration (providers and their targets)\n" ++
  "  -o OUTPUT_DIR, --output-dir OUTPUT_DIR\n" ++
  "                        Directory for the .lab/.dot files (default:\n" ++
  "                        label.output_dir or .)\n" ++
  "  --format \x7btext,dot,both\x7d\n" ++
  "                        Output format(s) to write (default: both)\n" ++
  "  --depth-limit DEPTH_LIMIT\n" ++
  "                        Do not expand states deeper than this\n" ++
  "  --max-states MAX_STATES\n" ++
  "                        Stop the search after this many states\n" ++
  "  --verbose             Verbose output\n"

end StateAtlas
