import Uplink.Note
import Uplink.Route.Config
import Uplink.Shell

/-!
# Checking the route

One cycle looks at the dial-up interface and at the route table, and does at most one thing about
what is missing: it launches the dialer, or it adds the route.  What that brought about is seen by
the next cycle.
-/

namespace Uplink
namespace Route

/-- The command that shows the traffic of the interface. -/
def statsCommand : String := "pppstats"

/-- The command that shows the route table. -/
def tableCommand : String := "route -n"

/-- The command that launches the dialer. -/
def dialCommand : String := "pppd"

/-- What the heading of the traffic contains. -/
def statsMark : String := "PACK VJCOMP  VJUNC"

/-- What a command tells about an interface that is not there. -/
def missingMark : String := "nonexistent interface"

/-- The result of a cycle. -/
inductive Status where
  /-- The interface was missing, and the dialer was launched. -/
  | dialing
  /-- The route was missing, and was added. -/
  | routeAdded
  /-- The route is there. -/
  | ready
  /-- A command failed or told something else than expected. -/
  | error
  deriving DecidableEq, Repr

namespace Status

/-- The name of a status. -/
def name : Status → String
  | dialing => "dialing"
  | routeAdded => "routeAdded"
  | ready => "ready"
  | error => "error"

/-- The note under which a status is published. -/
def note : Status → Note
  | dialing => .pppd
  | routeAdded => .route
  | ready => .ready
  | error => .error

end Status

/-- Whether the first column of a line of the route table is the given network. -/
def hasRoute (table subnet : String) : Bool :=
  (table.toList.splitOn '\n').any fun line => Text.firstColumn? line = some subnet.toList

/-- What a route is checked with: the shell, and the outputs that are kept. -/
structure Checker where
  /-- The shell. -/
  shell : Shell := {}
  /-- The outputs that are kept. -/
  cache : OutputCache := {}
  deriving Inhabited

namespace Checker

/-- The output of a command, as it is kept or made anew. -/
def output (checker : Checker) (key command : String) (anew : Bool) :
    Except Failure String × Checker :=
  let (result, cache, shell) := checker.cache.get checker.shell key command anew
  (result, { shell, cache })

/-- Run a command whatever comes of it. -/
def run (checker : Checker) (command : String) : Checker :=
  { checker with shell := (checker.shell.exec command).2 }

/-- Look at the route table, and add the route if it is missing. -/
def checkTable (checker : Checker) (config : Config) : Status × Checker :=
  match checker.output "route" tableCommand true with
  | (.ok table, checker) =>
    if hasRoute table config.subnet then (.ready, checker)
    else (.routeAdded, checker.run config.addCommand)
  | (.error _, checker) => (.error, checker)

/-- One cycle. -/
def check (checker : Checker) (config : Config) : Status × Checker :=
  match checker.output "pppstats" statsCommand true with
  | (.ok stats, checker) =>
    if Text.contains stats statsMark then checker.checkTable config else (.error, checker)
  | (.error (.shell _ _ told), checker) =>
    if Text.contains told missingMark then (.dialing, checker.run dialCommand)
    else (.error, checker)
  | (.error _, checker) => (.error, checker)

end Checker
end Route
end Uplink
