import DocBuild.CommandLine.Options

namespace DocBuild.CommandLine

inductive Page where
  | level (l : Level)
  /-- About the command `help` of a level. -/
  | help (l : Level)
  deriving DecidableEq, Repr

/-- Why no command is carried out. -/
inductive Stop where
  | page (p : Page)
  | version
  | misuse (l : Level) (e : UsageError)
  /-- A level that needs a further command was given nothing at all. -/
  | bare (l : Level)
  deriving DecidableEq, Repr

inductive Shape where
  /-- Two hyphens. -/
  | separator
  /-- Two hyphens, a name, and what follows an equals sign. -/
  | long (name : String) (value : Option Bytes)
  /-- A hyphen and letters. -/
  | letters (pieces : List Utf8.Piece)
  | word
  deriving DecidableEq, Repr

def hyphen : UInt8 := 0x2d

def equalsSign : UInt8 := 0x3d

/-- A single hyphen is a word. -/
def shapeOf : Bytes → Shape
  | [] => .word
  | [_] => .word
  | a :: b :: rest =>
    if a ≠ hyphen then .word
    else if b ≠ hyphen then .letters (Utf8.pieces (b :: rest))
    else if rest = [] then .separator
    else
      let name := rest.takeWhile (· ≠ equalsSign)
      match rest.drop name.length with
      | [] => .long (Utf8.lossy name) none
      | _ :: value => .long (Utf8.lossy name) (some value)

/-- What the arguments of one level have said so far. -/
structure Reading where
  options : Options := {}
  /-- The option that was named last, with its value once it has come. -/
  pending : Option (Parameter × Option Bytes) := none
  /-- Whether two hyphens have ended the options. -/
  ended : Bool := false

namespace Reading

/-- Whether the last option still lacks its value. -/
def awaits (r : Reading) : Bool :=
  match r.pending with
  | some (_, none) => true
  | _ => false

def supply (r : Reading) (value : Bytes) : Reading :=
  { r with pending := r.pending.map fun p => (p.1, some value) }

def settle (r : Reading) : Except UsageError Reading :=
  match r.pending with
  | none => .ok r
  | some (p, none) => .error (.missingValue p)
  | some (p, some value) => do
    return { r with options := ← r.options.store p value, pending := none }

/-- An option is named. Without a value of its own it waits for the next argument. -/
def name (r : Reading) (p : Parameter) (value : Option Bytes) : Except UsageError Reading := do
  let r ← r.settle
  match value with
  | none => return { r with pending := some (p, none) }
  | some value => return { r with options := ← r.options.store p value }

end Reading

namespace Level

def misuse {α : Type} (level : Level) : Except UsageError α → Except Stop α
  | .ok a => .ok a
  | .error e => .error (.misuse level e)

/-- A switch is turned on. Those that ask for a text end the reading. -/
def turnOn (level : Level) (r : Reading) (s : Switch) : Except Stop Reading := do
  let r ← level.misuse r.settle
  match s with
  | .verbose => return { r with options.verbosity := r.options.verbosity + 1 }
  | .help => throw (.page (.level level))
  | .version => throw .version

def readLong (level : Level) (r : Reading) (name : String) (value : Option Bytes) :
    Except Stop Reading :=
  match Parameter.named? name with
  | some p => level.misuse (r.name p value)
  | none =>
    match (Switch.ofLevel level).find? (·.name = name), value with
    | none, _ => level.misuse (.error (.unexpectedArgument ("--" ++ name)))
    | some s, some value => level.misuse (.error (.unexpectedValue (Utf8.lossy value) s))
    | some s, none => level.turnOn r s

/-- Letters behind one hyphen, each a switch of its own. -/
def readLetters (level : Level) (r : Reading) : List Utf8.Piece → Except Stop Reading
  | [] => .ok r
  | .char c :: rest =>
    match (Switch.ofLevel level).find? (·.letter = c) with
    | some s => do level.readLetters (← level.turnOn r s) rest
    | none => level.misuse (.error (.unexpectedArgument ("-" ++ c.toString)))
  | pieces => level.misuse (.error (.unexpectedArgument ("-" ++ Utf8.shown pieces)))

/-- A word where none is expected. Behind two hyphens even the name of a command is out of place. -/
def stray (level : Level) (ended : Bool) (word : Bytes) : UsageError :=
  let text := Utf8.lossy word
  let isCommand := level.isDivided && ((level.child? text).isSome || text = "help")
  if level.isDivided && !(ended && isCommand) then .unknownCommand text
  else .unexpectedArgument text

/-- The page that the words behind `help` lead to. -/
def helpOn (level : Level) : List Bytes → Except UsageError Page
  | [] => .ok (.level level)
  | word :: rest =>
    match level.child? (Utf8.lossy word) with
    | some child => child.helpOn rest
    | none =>
      if level.isDivided && Utf8.lossy word = "help" then
        match rest with
        | [] => .ok (.help level)
        | next :: _ => .error (.unknownCommand (Utf8.lossy next))
      else .error (.unknownCommand (Utf8.lossy word))

/-- What is left to do at a level when its arguments are through; `selected` tells whether they
    selected a further command. Answers the options that the arguments set. -/
def complete (level : Level) (v : Variables) (r : Reading) (selected : Bool) :
    Except Stop Options := do
  let r ← level.misuse r.settle
  let completed ← level.misuse (v.complete r.options)
  if level = .settings && !selected then
    if completed.isSet then throw (.misuse level (.missingCommand level)) else throw (.bare level)
  return r.options

/-- Reads the arguments from a level on: the level they lead to and the options they set. -/
def read (v : Variables) (level : Level) (r : Reading) : List Bytes → Except Stop (Level × Options)
  | [] => return (level, ← level.complete v r false)
  | argument :: rest =>
    let text := Utf8.lossy argument
    match if r.ended || r.awaits then none else level.child? text with
    | some child => do
      let (last, inner) ← read v child {} rest
      return (last, inner.nested (← level.complete v r true))
    | none =>
      if !r.ended && !r.awaits && level.isDivided && text = "help" then do
        throw (.page (← level.misuse (level.helpOn rest)))
      else if r.ended then level.misuse (.error (level.stray true argument))
      else
        match shapeOf argument with
        | .separator => read v level { r with ended := true } rest
        | .long name value => do read v level (← level.readLong r name value) rest
        | .letters pieces => do read v level (← level.readLetters r pieces) rest
        | .word =>
          if r.awaits then read v level (r.supply argument) rest
          else level.misuse (.error (level.stray false argument))

end Level

inductive Action where
  | build
  | clean
  | initSettings
  | showSettings
  deriving DecidableEq, Repr

/-- The command of a level; the program alone builds. -/
def Level.action? : Level → Option Action
  | program | build => some .build
  | clean => some .clean
  | settings => none
  | initSettings => some .initSettings
  | showSettings => some .showSettings

structure Request where
  action : Action
  options : Options
  deriving DecidableEq, Repr

def Request.ofArguments (v : Variables) (arguments : List Bytes) : Except Stop Request := do
  let (last, given) ← Level.program.read v {} arguments
  let options ← Level.program.misuse (v.complete given)
  match last.action? with
  | some action => return { action, options }
  | none => throw (.bare last)

end DocBuild.CommandLine
