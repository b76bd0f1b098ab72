import ChangeFeed.Live.Machine

/-!
The command line program: it prints the changes of a capture, one line each, and tells on the standard
error output why it fails.
-/

namespace ChangeFeed.Program

def Failure.lines (f : Failure) : List String :=
  let causes := match f.causes with
    | [] => []
    | [cause] => ["", "Caused by:", "    " ++ cause]
    | causes => ["", "Caused by:"] ++ causes.mapIdx fun i cause => s!"    {i}: {cause}"
  ("Error: " ++ f.text) :: causes

def Exit.lines : Exit → List String
  | .success => []
  | .failure f => f.lines
  | .usage fault => [fault.text, "", usageLine, "", "For more information, try '--help'."]
  | .panicked message => [message]

end ChangeFeed.Program

def main (arguments : List String) : IO UInt32 := do
  let machine ← ChangeFeed.Live.Machine.create
  let environment ← ChangeFeed.Live.environment
  let exit ← (ChangeFeed.Program.execute (m := ChangeFeed.Live.Act) arguments environment).run machine
  let stderr ← IO.getStderr
  for text in exit.lines do stderr.putStrLn text
  return exit.code.toUInt32
