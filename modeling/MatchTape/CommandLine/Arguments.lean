/-!
# Arguments

What the arguments of the program ask for.  Options stand before, between or
behind names; a value stands behind its option or, after an equals sign, in the
same argument; after two dashes everything is a name.  The word `record` asks for
an exhibition match where an argument of its own can begin.
-/

namespace MatchTape.CommandLine

inductive Key where
  | recordings
  | jobs
  | checkpoints
  | saveFrame
  | saveName
  | loadName
  | frames
  | seed
  | players
  | map
  | interval
  deriving DecidableEq, Repr

/-- Why arguments are not carried out. -/
inductive Ending where
  | usage
  | help
  | version
  deriving DecidableEq, Repr

/-- What can stand on one level of arguments. -/
structure Level where
  options : List (String × Key)
  letters : List (Char × Key)
  hasVersion : Bool
  hasCommands : Bool
  manyNames : Bool

def outerLevel : Level where
  options := [("replay-dir", .recordings), ("jobs", .jobs), ("save-dir", .checkpoints),
    ("save-at-frame", .saveFrame), ("save-to", .saveName), ("load-checkpoint", .loadName)]
  letters := [('j', .jobs)]
  hasVersion := true
  hasCommands := true
  manyNames := true

def recordLevel : Level where
  options := [("replay-dir", .recordings), ("frames", .frames), ("seed", .seed),
    ("players", .players), ("map", .map), ("crc-interval", .interval)]
  letters := []
  hasVersion := false
  hasCommands := false
  manyNames := false

def digits? (chars : List Char) : Option Nat :=
  if chars.isEmpty || !chars.all Char.isDigit then none
  else some (chars.foldl (fun value char => value * 10 + (char.toNat - 48)) 0)

/-- A number without a sign, or with a plus sign, below the given bound. -/
def unsigned? (bound : Nat) (text : String) : Option Nat := do
  let value ← match text.toList with
    | '+' :: rest => digits? rest
    | chars => digits? chars
  if value < bound then some value else none

def between? (low high : Nat) (text : String) : Option Nat := do
  let value ← match text.toList with
    | '+' :: rest => digits? rest
    | '-' :: rest => (digits? rest).filter (· == 0)
    | chars => digits? chars
  if low ≤ value ∧ value ≤ high then some value else none

def mostPlayers : Nat := 8

def largest32 : Nat := 4294967295

def number? : Key → String → Option Nat
  | .jobs, value => unsigned? UInt64.size value
  | .players, value => between? 1 mostPlayers value
  | _, value => between? 0 largest32 value

def isValid (key : Key) (value : String) : Bool :=
  match key with
  | .recordings | .checkpoints => !value.isEmpty
  | .saveName | .loadName | .map => true
  | key => (number? key value).isSome

structure Found where
  values : List (Key × String) := []
  names : List String := []
  command : Option (String × List String) := none
  deriving DecidableEq, Repr

namespace Found

def value? (found : Found) (key : Key) : Option String :=
  found.values.lookup key

def has (found : Found) (key : Key) : Bool :=
  (found.value? key).isSome

/-- Take an option with its value.  An option is given once. -/
def accept (found : Found) (key : Key) (value : String) : Except Ending Found :=
  if found.has key || !isValid key value then .error .usage
  else .ok { found with values := found.values ++ [(key, value)] }

def number (found : Found) (key : Key) (default : Nat) : Nat :=
  ((found.value? key).bind (number? key)).getD default

end Found

inductive Shape where
  | separator
  | option (name : String) (value : Option String)
  | letter (name : Char) (value : Option String)
  | name
  deriving DecidableEq, Repr

/-- The text behind the first equals sign, and the text in front of it. -/
def splitValue (chars : List Char) : String × Option String :=
  match chars.dropWhile (· != '=') with
  | [] => (String.ofList chars, none)
  | _ :: value => (String.ofList (chars.takeWhile (· != '=')), some (String.ofList value))

def shapeOf (argument : String) : Shape :=
  match argument.toList with
  | ['-', '-'] => .separator
  | '-' :: '-' :: chars =>
      let (name, value) := splitValue chars
      .option name value
  | ['-', name] => .letter name none
  | '-' :: name :: '=' :: value => .letter name (some (String.ofList value))
  | '-' :: name :: value => .letter name (some (String.ofList value))
  | _ => .name

inductive Meaning where
  | takes (key : Key)
  | ends (ending : Ending)
  deriving DecidableEq, Repr

def Level.option? (level : Level) (name : String) : Option Meaning :=
  match level.options.lookup name with
  | some key => some (.takes key)
  | none =>
      if name = "help" then some (.ends .help)
      else if name = "version" ∧ level.hasVersion then some (.ends .version)
      else none

def Level.letter? (level : Level) (name : Char) : Option Meaning :=
  match level.letters.lookup name with
  | some key => some (.takes key)
  | none =>
      if name = 'h' then some (.ends .help)
      else if name = 'V' ∧ level.hasVersion then some (.ends .version)
      else none

def isCommand (argument : String) : Bool :=
  argument == "record" || argument == "help"

/-- Take a name.  A level may have room for one name only. -/
def Level.takeName (level : Level) (found : Found) (name : String) : Except Ending Found :=
  if level.manyNames || found.names.isEmpty then
    .ok { found with names := found.names ++ [name] }
  else .error .usage

/-- Go through the arguments of a level.  `awaiting` is the option whose value
comes next; `fresh` says that no list of names is being read, so that a command
may begin. -/
def Level.scan (level : Level) (awaiting : Option Key) (fresh : Bool) (found : Found) :
    List String → Except Ending Found
  | [] => if awaiting.isSome then .error .usage else .ok found
  | argument :: rest =>
      match awaiting with
      | some key =>
          if shapeOf argument = .name then do
            let found ← found.accept key argument
            level.scan none true found rest
          else .error .usage
      | none =>
          if fresh && level.hasCommands && isCommand argument then
            .ok { found with command := some (argument, rest) }
          else
            match shapeOf argument with
            | .separator => rest.foldlM level.takeName found
            | .option name value =>
                match level.option? name, value with
                | some (.takes key), some value => do
                    let found ← found.accept key value
                    level.scan none true found rest
                | some (.takes key), none => level.scan (some key) true found rest
                | some (.ends ending), none => .error ending
                | some (.ends _), some _ => .error .usage
                | none, _ => .error .usage
            | .letter name value =>
                match level.letter? name, value with
                | some (.takes key), some value => do
                    let found ← found.accept key value
                    level.scan none true found rest
                | some (.takes key), none => level.scan (some key) true found rest
                | some (.ends ending), _ => .error ending
                | none, _ => .error .usage
            | .name => do
                let found ← level.takeName found argument
                level.scan none (!level.manyNames) found rest

structure PlayRequest where
  recordings : String
  checkpoints : String
  names : List String
  jobs : Option Nat
  saveFrame : Option UInt32
  saveName : Option String
  loadName : Option String
  deriving DecidableEq, Repr

structure RecordRequest where
  recordings : String
  name : String
  frames : UInt32
  seed : UInt32
  players : UInt8
  map : String
  interval : UInt32
  deriving DecidableEq, Repr

inductive Request where
  | play (request : PlayRequest)
  | record (request : RecordRequest)
  deriving DecidableEq, Repr

def defaultRecordings : String := "Replays"

def defaultCheckpoints : String := "Save"

/-- Whether the options go together.  Workers, a checkpoint to go on from and a frame
to save at exclude each other.  A frame to save at needs a name, and a name needs a
frame unless something is given that excludes the frame. -/
def Found.isConsistent (found : Found) : Bool :=
  let excluding := found.has .jobs || found.has .loadName
  !(found.has .jobs && found.has .loadName) &&
    (if found.has .saveFrame then found.has .saveName && !excluding
      else !found.has .saveName || excluding)

def Found.playRequest (found : Found) : PlayRequest where
  recordings := (found.value? .recordings).getD defaultRecordings
  checkpoints := (found.value? .checkpoints).getD defaultCheckpoints
  names := found.names
  jobs := (found.value? .jobs).bind (number? .jobs)
  saveFrame := ((found.value? .saveFrame).bind (number? .saveFrame)).map UInt32.ofNat
  saveName := found.value? .saveName
  loadName := found.value? .loadName

/-- The request for an exhibition match.  A folder may also be named in front of
the command. -/
def Found.recordRequest (outer found : Found) (name : String) : RecordRequest where
  recordings := ((found.value? .recordings).or (outer.value? .recordings)).getD defaultRecordings
  name := name
  frames := UInt32.ofNat (found.number .frames 1800)
  seed := UInt32.ofNat (found.number .seed 1)
  players := UInt8.ofNat (found.number .players 2)
  map := (found.value? .map).getD "Flat Plains"
  interval := UInt32.ofNat (found.number .interval 30)

/-- Whether help is there for what stands behind the command that asks for it: for the
program, or for one command. -/
def hasHelp (topic : List String) : Bool :=
  match topic with
  | [] => true
  | [command] => isCommand command
  | _ => false

def parse (arguments : List String) : Except Ending Request := do
  let outer ← outerLevel.scan none true {} arguments
  match outer.command with
  | none => if outer.isConsistent then return .play outer.playRequest else throw .usage
  | some (command, rest) =>
      if command = "help" then throw (if hasHelp rest then .help else .usage)
      let inner ← recordLevel.scan none true {} rest
      match inner.names with
      | [name] =>
          if outer.isConsistent then return .record (outer.recordRequest inner name)
          else throw .usage
      | _ => throw .usage

end MatchTape.CommandLine
