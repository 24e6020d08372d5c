import ThemeLint.Command

namespace ThemeLint.Host

open Bytes

def textOf (path : Bytes) : String := (String.fromUTF8? ⟨path.toArray⟩).getD ""

-- What an entry leads to. Whatever cannot be had is a link to a name that no file has.
def nodeOf (entry : IO.FS.DirEntry) : IO Node := do
  try
    if ← entry.path.isDir then return .directory
    return .file (← IO.FS.readBinFile entry.path).toList
  catch _ => return .link [0]

def gather : Nat → List Bytes → IO.FS.DirEntry → IO (List (List Bytes × Node))
  | depth, above, entry => do
    let place := above ++ [utf8 entry.fileName]
    let node ← nodeOf entry
    match depth, node with
    | depth + 1, .directory =>
      let children ← (← entry.path.readDir).toList.mapM (gather depth place)
      return (place, node) :: children.flatten
    | _, _ => return [(place, node)]

def gatherAt (depth : Nat) (path : Bytes) : IO (List (List Bytes × Node)) := do
  let places := Path.components path
  let above := (List.range places.length).tail.map fun n => (places.take n, Node.directory)
  match places.getLast? with
  | none => return []
  | some name =>
    let entry : IO.FS.DirEntry :=
      { root := ⟨textOf (Path.absolute places.dropLast)⟩, fileName := textOf name }
    if ← entry.path.pathExists then
      return above ++ (← gather depth places.dropLast entry)
    else return []

-- The part of the host's files that a check with these options looks at: the work
-- directory itself, its configuration and its topics.
def snapshot (current : Bytes) (o : Options) : IO Disk := do
  let empty : Disk := ⟨Tree.empty, Path.components current⟩
  let root := empty.absolute o.dir
  let wanted := [(0, root), (0, Path.join root Config.fileName), (0, empty.absolute o.config),
    (3, Path.join root (utf8 "topics"))]
  let found ← wanted.mapM fun (depth, path) => gatherAt depth path
  let tree := found.flatten.foldl (fun tree (place, node) => tree.put place node) Tree.empty
  return { empty with tree }

def clock (milliseconds : Nat) : Bytes :=
  let field (width n : Nat) : Bytes :=
    List.replicate (width - (ofNat n).length) (byte '0') ++ ofNat n
  let seconds := milliseconds / 1000
  field 2 (seconds / 3600) ++ utf8 ":" ++ field 2 (seconds / 60 % 60) ++ utf8 ":"
    ++ field 2 (seconds % 60) ++ utf8 "." ++ field 3 (milliseconds % 1000)

end ThemeLint.Host

open ThemeLint in
def main (arguments : List String) : IO UInt32 := do
  let start ← IO.monoMsNow
  let arguments := arguments.map utf8
  let current := utf8 (← IO.currentDir).toString
  let options := match Options.parse arguments with
    | .ok o => o
    | .error _ => Options.default
  let disk ← Host.snapshot current options
  let noColor := utf8 ((← IO.getEnv "NO_COLOR").getD "")
  let isTerminal ← (← IO.getStderr).isTty
  let time := Host.clock ((← IO.monoMsNow) - start)
  let outcome := Command.run { noColor, isTerminal, time } disk arguments
  (← IO.getStdout).write ⟨outcome.stdout.toArray⟩
  (← IO.getStderr).write ⟨outcome.stderr.toArray⟩
  return outcome.exitCode.toUInt32
