/-!
# Help

What the command line says about itself.

## Main Definitions

* `Help.overview`, `Help.run`, `Help.serve` — the lines on the command line and on its commands.
* `Help.on` — the lines on a command, or on the command line as a whole.
-/

namespace SumTree

namespace Help

/-- The lines on the command line as a whole. -/
def overview (program : String) : List String :=
  ["Usage: " ++ program ++ " [OPTIONS] COMMAND [ARGS]...",
    "",
    "  Distributed Merkle sum tree aggregation.",
    "",
    "Options:",
    "  -v, --verbose  Increase log verbosity (-v info, -vv debug).",
    "  --help         Show this message and exit.",
    "",
    "Commands:",
    "  run           Build an aggregate Merkle sum tree over entries in...",
    "  serve-worker  Serve POST / and answer each entry batch with its sum tree."]

/-- The lines on the aggregating command. -/
def run (program : String) : List String :=
  ["Usage: " ++ program ++ " run [OPTIONS] CSV_FILES...",
    "",
    "  Build an aggregate Merkle sum tree over entries in CSV_FILES.",
    "",
    "Options:",
    "  -n, --executors INTEGER RANGE   Number of chunks, one worker each.  [default:",
    "                                  1; x>=1]",
    "  --spawner [mock|local|cloud]    How workers are provisioned.  [default: mock]",
    "  --worker TEXT                   Worker address (mock) or swarm node (cloud).",
    "                                  Repeat once per executor.",
    "  --image TEXT                    Worker image for the local and cloud spawners.",
    "  --service-name TEXT             Swarm service to create or scale.",
    "  --compose FILE                  docker-compose file describing the swarm",
    "                                  service.",
    "  --port INTEGER                  Published worker port on swarm nodes.",
    "                                  [default: 4000]",
    "  --timeout FLOAT                 Worker request timeout in seconds.",
    "  --grace FLOAT                   Seconds cancelled executors get to unwind.",
    "  --odd-node-policy [carry_up|zero_pad]",
    "                                  How the last node of an odd-sized level is",
    "                                  lifted.  [default: carry_up]",
    "  --max-balance-bytes INTEGER RANGE",
    "                                  Reject aggregated balances that do not fit in",
    "                                  this many bytes.  [x>=1]",
    "  --help                          Show this message and exit."]

/-- The lines on the serving command. -/
def serve (program : String) : List String :=
  ["Usage: " ++ program ++ " serve-worker [OPTIONS]",
    "",
    "  Serve POST / and answer each entry batch with its sum tree.",
    "",
    "Options:",
    "  --host TEXT                     Bind address.  [default: 0.0.0.0]",
    "  --port INTEGER                  Listen port.  [default: 4000]",
    "  --odd-node-policy [carry_up|zero_pad]",
    "                                  How the last node of an odd-sized level is",
    "                                  lifted.  [default: carry_up]",
    "  --help                          Show this message and exit."]

/-- The lines on a command, or on the command line as a whole. -/
def on (program : String) : Option String → List String
  | some "run" => run program
  | some _ => serve program
  | none => overview program

end Help

end SumTree
