import ImportAlias.Path.Platform

/-!
# Command-line arguments

The program takes options, one of three commands, and options and specifiers of that command. The
global options may stand before the command or after it.

Arguments are read one after another. Each level, the program itself and its command, keeps what
was given at it. An option may be given once at a level; the flag for more detail counts. A value
that stands in an argument of its own is checked only when the next option or specifier comes, or
at the end of its level, so a request for help that comes first is granted. What is given at the
command wins over what is given before it, and both win over the environment.
-/

namespace ImportAlias

namespace Command

/-- What the program is asked to do. -/
inductive Action where
  /-- Print the version. -/
  | version
  /-- Resolve specifiers. -/
  | resolve (specifiers : List Text) (project : Option Text) (relative : Bool)
  /-- Show the compiled options. -/
  | mappings (project : Option Text)
  deriving DecidableEq, Repr

/-- A command line that was understood. -/
structure Invocation where
  /-- How often more detail was asked for. -/
  verbosity : Nat
  json : Bool
  cwd : Option Text
  platform : Option Platform
  action : Action
  deriving DecidableEq, Repr

/-- Why no command is run. -/
inductive Stop where
  /-- The arguments are not understood. -/
  | usage
  /-- Help was asked for. -/
  | help
  /-- The version was asked for by an option. -/
  | version
  deriving DecidableEq, Repr

/-- The commands by name. -/
inductive Name where
  | version
  | resolve
  | mappings
  deriving DecidableEq, Repr

/-- The command of a name. -/
def Name.ofText? (t : Text) : Option Name :=
  if t = "version".toList then some .version
  else if t = "resolve".toList then some .resolve
  else if t = "mappings".toList then some .mappings
  else none

/-- An option that takes a value. -/
inductive ValueOption where
  | cwd
  | platform
  | project
  deriving DecidableEq, Repr

/-- An option that takes none. -/
inductive Flag where
  | verbose
  | json
  | relative
  | help
  | version
  deriving DecidableEq, Repr

/-- An option. -/
inductive AnyOption where
  | value (o : ValueOption)
  | flag (f : Flag)
  deriving DecidableEq, Repr

/-- Whether an option is known at a level: before the command, or at the command of a name. -/
def AnyOption.knownAt (level : Option Name) : AnyOption → Bool
  | .value .project => level = some .resolve || level = some .mappings
  | .flag .relative => level = some .resolve
  | .flag .version => level = none
  | _ => true

/-- The option of a long name. -/
def AnyOption.ofLong? (name : Text) : Option AnyOption :=
  if name = "cwd".toList then some (.value .cwd)
  else if name = "platform".toList then some (.value .platform)
  else if name = "project".toList then some (.value .project)
  else if name = "verbose".toList then some (.flag .verbose)
  else if name = "json".toList then some (.flag .json)
  else if name = "relative".toList then some (.flag .relative)
  else if name = "help".toList then some (.flag .help)
  else if name = "version".toList then some (.flag .version)
  else none

/-- The option of a letter. -/
def AnyOption.ofShort? (c : Char) : Option AnyOption :=
  if c = 'p' then some (.value .project)
  else if c = 'v' then some (.flag .verbose)
  else if c = 'h' then some (.flag .help)
  else if c = 'V' then some (.flag .version)
  else none

/-- What was given at one level. -/
structure Given where
  verbose : Nat := 0
  json : Bool := false
  relative : Bool := false
  cwd : Option Text := none
  platform : Option Platform := none
  project : Option Text := none
  /-- The specifiers, the last first. -/
  specifiers : List Text := []
  /-- The option whose value is due, or was given in an argument of its own and is not checked
  yet. -/
  pending : Option (ValueOption × Option Text) := none
  deriving DecidableEq, Repr

/-- The greatest count of a flag. -/
def maxCount : Nat := 255

namespace Given

/-- Note the value of an option. It must be fit for it, and the first. -/
def setValue (g : Given) (o : ValueOption) (value : Text) : Except Stop Given :=
  match o with
  | .cwd => if value = [] ∨ g.cwd.isSome then .error .usage else .ok { g with cwd := some value }
  | .project =>
    if value = [] ∨ g.project.isSome then .error .usage else .ok { g with project := some value }
  | .platform =>
    match Platform.parse value with
    | .error _ => .error .usage
    | .ok p => if g.platform.isSome then .error .usage else .ok { g with platform := some p }

/-- Note the pending value, if there is one. -/
def settle (g : Given) : Except Stop Given :=
  match g.pending with
  | none => .ok g
  | some (_, none) => .error .usage
  | some (o, some value) => { g with pending := none }.setValue o value

/-- Note a flag. -/
def setFlag (g : Given) (f : Flag) : Except Stop Given :=
  match g.settle with
  | .error stop => .error stop
  | .ok g =>
    match f with
    | .verbose => .ok { g with verbose := min maxCount (g.verbose + 1) }
    | .json => if g.json then .error .usage else .ok { g with json := true }
    | .relative => if g.relative then .error .usage else .ok { g with relative := true }
    | .help => .error .help
    | .version => .error .version

/-- Note an option whose value stands in the same argument. -/
def setAttached (g : Given) (o : ValueOption) (value : Text) : Except Stop Given :=
  match g.settle with
  | .error stop => .error stop
  | .ok g => g.setValue o value

/-- Note an option whose value is due in the next argument. -/
def await (g : Given) (o : ValueOption) : Except Stop Given :=
  match g.settle with
  | .error stop => .error stop
  | .ok g => .ok { g with pending := some (o, none) }

/-- Note a specifier. -/
def addSpecifier (g : Given) (specifier : Text) : Except Stop Given :=
  match g.settle with
  | .error stop => .error stop
  | .ok g => .ok { g with specifiers := specifier :: g.specifiers }

/-- Read a long option, without its dashes. -/
def readLong (level : Option Name) (g : Given) (body : Text) : Except Stop Given :=
  let name := body.takeWhile (· ≠ '=')
  let value := body.dropWhile (· ≠ '=')
  match (AnyOption.ofLong? name).filter (·.knownAt level) with
  | none => .error .usage
  | some (.value o) => if value = [] then g.await o else g.setAttached o (value.drop 1)
  | some (.flag f) => if value = [] then g.setFlag f else .error .usage

/-- Read a cluster of options given by letters. An option that takes a value takes the rest of the
cluster, from which an equals sign may set it off. -/
def readShort (level : Option Name) : Given → Text → Except Stop Given
  | g, [] => .ok g
  | g, c :: rest =>
    match (AnyOption.ofShort? c).filter (·.knownAt level) with
    | none => .error .usage
    | some (.value o) =>
      match rest with
      | [] => g.await o
      | '=' :: value => g.setAttached o value
      | value => g.setAttached o value
    | some (.flag f) =>
      match g.setFlag f with
      | .error stop => .error stop
      | .ok g => readShort level g rest

end Given

/-- The state between two arguments. -/
structure Progress where
  /-- The command, once it was met. -/
  level : Option Name := none
  /-- What was given at this level. -/
  given : Given := {}
  /-- What was given before the command. -/
  outer : Given := {}
  /-- Only specifiers follow. -/
  trailing : Bool := false
  deriving DecidableEq, Repr

namespace Progress

/-- Put what was noted at the current level into the state. -/
def update (p : Progress) (given : Except Stop Given) : Except Stop Progress :=
  match given with
  | .error stop => .error stop
  | .ok given => .ok { p with given }

/-- Read an argument that is no option and no value of one. -/
def readWord (p : Progress) (word : Text) : Except Stop Progress :=
  match p.level with
  | some .resolve => p.update (p.given.addSpecifier word)
  | some _ => .error .usage
  | none =>
    if p.trailing then .error .usage
    else
      match Name.ofText? word with
      | some name => .ok { level := some name, outer := p.given }
      | none => .error .usage

/-- Read one argument. -/
def readArgument (p : Progress) (arg : Text) : Except Stop Progress :=
  if p.trailing then p.readWord arg
  else
    match p.given.pending, arg with
    | some (_, none), '-' :: _ :: _ => .error .usage
    | some (o, none), value => .ok { p with given := { p.given with pending := some (o, value) } }
    | _, ['-', '-'] => .ok { p with trailing := true }
    | _, '-' :: '-' :: body => p.update (p.given.readLong p.level body)
    | _, '-' :: c :: letters => p.update (p.given.readShort p.level (c :: letters))
    | _, word => p.readWord word

/-- Whether words after the command `help` name something that help is given on. -/
def helpTopic : List Text → Bool
  | [] => true
  | [topic] => (Name.ofText? topic).isSome || topic = "help".toList
  | _ => false

/-- Whether an argument is the command that asks for help. -/
def asksHelp (p : Progress) (arg : Text) : Bool :=
  p.level = none && !p.trailing && arg = "help".toList &&
    match p.given.pending with
    | some (_, none) => false
    | _ => true

/-- Read all arguments. -/
def readAll : Progress → List Text → Except Stop Progress
  | p, [] => .ok p
  | p, arg :: args =>
    if p.asksHelp arg then .error (if helpTopic args then .help else .usage)
    else
      match p.readArgument arg with
      | .error stop => .error stop
      | .ok p => readAll p args

end Progress

/-- Check the pending value of a level and add what the environment says about the platform. -/
def closeLevel (platform : Option Text) (g : Given) : Except Stop Given :=
  match g.settle with
  | .error stop => .error stop
  | .ok g =>
    match g.platform, platform with
    | none, some value => g.setValue .platform value
    | _, _ => .ok g

/-- Put together what was given before the command and at it. `inner` is what was given at it, and
`said` tells apart a platform given there from one of the environment. -/
def combine (outer inner : Given) (said : Bool) (outerSaid : Bool) (action : Action) :
    Invocation where
  verbosity := if inner.verbose = 0 then outer.verbose else inner.verbose
  json := outer.json || inner.json
  cwd := inner.cwd.or outer.cwd
  platform := if outerSaid && !said then outer.platform else inner.platform.or outer.platform
  action := action

/-- The action that a command's arguments ask for. -/
def actionOf (name : Option Name) (g : Given) : Except Stop Action :=
  match name with
  | none | some .version => .ok .version
  | some .mappings => .ok (.mappings g.project)
  | some .resolve =>
    if g.specifiers = [] then .error .usage
    else .ok (.resolve g.specifiers.reverse g.project g.relative)

/-- Whether a platform was given by an option, checked already or not. -/
def Given.saysPlatform (g : Given) : Bool :=
  g.platform.isSome || g.pending.any fun o => o.1 = .platform

/-- Read a command line. `platform` is what the environment says about the platform. -/
def parseArguments (platform : Option Text) (args : List Text) : Except Stop Invocation :=
  match Progress.readAll {} args with
  | .error stop => .error stop
  | .ok p =>
    match closeLevel platform p.given with
    | .error stop => .error stop
    | .ok inner =>
      match actionOf p.level inner with
      | .error stop => .error stop
      | .ok action =>
        if p.level = none then
          .ok (combine {} inner p.given.saysPlatform false action)
        else
          match closeLevel platform p.outer with
          | .error stop => .error stop
          | .ok outer =>
            .ok (combine outer inner p.given.saysPlatform p.outer.saysPlatform action)

end Command

end ImportAlias
