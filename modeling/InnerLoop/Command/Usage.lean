/-!
# Reading arguments

A program has commands, some of them groups of further commands, and one option, the namespace,
that may stand anywhere. An argument that starts with a dash is an option; after `--` nothing is.

- `Usage`: what a command, or a group of commands, takes.
- `UsageFault`: why arguments are not taken.
- `Usage.read`: the command that arguments name, with its own arguments and the namespace.
-/

namespace InnerLoop

/-- Why arguments are not taken. Asking for help, or for the version, counts as that too. -/
inductive UsageFault where
  | helpWanted
  | versionWanted
  /-- A group of commands was named and nothing else was said. -/
  | nothingSaid
  | missingCommand
  | missingArgument
  | unknownCommand
  | unknownArgument
  /-- An option, or a path, has no value. -/
  | emptyValue
  /-- A value was given to an option that takes none. -/
  | unwantedValue
  /-- An option was given twice. -/
  | repeatedOption
  deriving DecidableEq, Inhabited, Repr

/-- An argument that a command takes by its place. -/
structure Positional where
  /-- Whether there has to be one. -/
  required : Bool := true
  /-- Whether all that follow belong to it, whatever options stand between them. -/
  many : Bool := false
  /-- Whether it is a path, which cannot be empty. -/
  isPath : Bool := false
  deriving DecidableEq, Inhabited, Repr

/-- What a command, or a group of commands, takes. `α` is what is made of the arguments of a
command, each given with its values. -/
inductive Usage (α : Type) where
  | command (args : List Positional) (make : List (List String) → Option α)
  | group (versioned : Bool) (commands : List (String × Usage α))

/-- What was read of the namespace and not yet settled, or of an argument. -/
inductive Unsettled where
  | nothing
  /-- The namespace, with its value if that was read. -/
  | ns (value : Option String)
  /-- The argument of a place, with its values so far. -/
  | arg (p : Positional) (values : List String)
  deriving DecidableEq, Inhabited

/-- How far the arguments of one command were read. -/
structure Reading where
  ns : Option String := none
  unsettled : Unsettled := .nothing
  /-- The values that are settled, those of one argument without an option between them together. -/
  values : List (List String) := []
  /-- The arguments that may still come; one that takes many may come on and on. -/
  left : List Positional
  /-- Whether nothing counts as an option any more. -/
  literal : Bool := false
  deriving Inhabited

namespace Reading

/-- The reading with the namespace set; it can be set once. -/
def setNs (r : Reading) (value : String) : Except UsageFault Reading :=
  if r.ns.isSome then .error .repeatedOption
  else .ok { r with ns := some value, unsettled := .nothing }

/-- The reading with nothing unsettled. -/
def settle (r : Reading) : Except UsageFault Reading :=
  match r.unsettled with
  | .nothing => .ok r
  | .ns none => .error .emptyValue
  | .ns (some v) => r.setNs v
  | .arg p vs =>
    if p.isPath ∧ "" ∈ vs then .error .emptyValue
    else .ok { r with unsettled := .nothing, values := r.values ++ [vs] }

/-- The reading with a value for the namespace, or in wait of one. -/
def option (r : Reading) (value : Option String) : Except UsageFault Reading := do
  let r ← r.settle
  match value with
  | some v => r.setNs v
  | none => return { r with unsettled := .ns none }

/-- Ends with `fault`, unless something unsettled is at fault. -/
def stop (r : Reading) (fault : UsageFault) : Except UsageFault Reading := do
  let _ ← r.settle
  throw fault

/-- The name and the value of a long option. -/
def splitOption (cs : List Char) : List Char × Option (List Char) :=
  match cs.dropWhile (· ≠ '=') with
  | [] => (cs, none)
  | _ :: value => (cs.takeWhile (· ≠ '='), some value)

/-- The reading after an option with two dashes. -/
def long (r : Reading) (versioned : Bool) (cs : List Char) : Except UsageFault Reading :=
  let (name, value) := splitOption cs
  if name = "namespace".toList then r.option (value.map String.ofList)
  else if name = "help".toList then
    if value.isSome then .error .unwantedValue else r.stop .helpWanted
  else if name = "version".toList ∧ versioned then
    if value.isSome then .error .unwantedValue else r.stop .versionWanted
  else .error .unknownArgument

/-- The reading after an option with one dash. -/
def short (r : Reading) (versioned : Bool) (c : Char) (rest : List Char) :
    Except UsageFault Reading :=
  if c = 'n' then
    r.option (match rest with
      | [] => none
      | '=' :: v => some (String.ofList v)
      | v => some (String.ofList v))
  else if c = 'h' then r.stop .helpWanted
  else if c = 'V' ∧ versioned then r.stop .versionWanted
  else .error .unknownArgument

/-- The reading after an argument that stands in its place; none is left if `none`. -/
def place (r : Reading) (a : String) : Option (Except UsageFault Reading) :=
  match r.unsettled with
  | .arg p vs => if p.many then some (.ok { r with unsettled := .arg p (vs ++ [a]) }) else next
  | _ => next
where
  next : Option (Except UsageFault Reading) :=
    match r.left with
    | [] => none
    | p :: left => some do
      let r ← r.settle
      return { r with unsettled := .arg p [a], left := if p.many then p :: left else left }

/-- The reading after an argument, if it counts as an option or as the value of one. -/
def optional (r : Reading) (versioned : Bool) (a : String) : Option (Except UsageFault Reading) :=
  if r.literal then none
  else match a.toList with
    | ['-', '-'] => some (.ok { r with literal := true })
    | '-' :: '-' :: cs => some (r.long versioned cs)
    | '-' :: c :: cs => some (r.short versioned c cs)
    | _ =>
      if r.unsettled = .ns none then some (.ok { r with unsettled := .ns (some a) }) else none

/-- Whether an argument may name a command. -/
def expectsCommand (r : Reading) : Bool := !r.literal && r.unsettled ≠ .ns none

end Reading

namespace Usage

variable {α : Type}

/-- The command of a name. -/
def find? (name : String) (commands : List (String × Usage α)) : Option (Usage α) :=
  commands.lookup name

/-- What is said when help is asked for on the command that some names lead to. -/
def help : Usage α → List String → UsageFault
  | _, [] => .helpWanted
  | .command .., _ :: _ => .unknownCommand
  | .group _ commands, name :: r =>
    match find? name commands with
    | some u => help u r
    | none => if name = "help" ∧ r = [] then .helpWanted else .unknownCommand

/-- The values of each argument, of settled ones. What is left for an argument that takes many is all
its own. -/
def allot : List Positional → List (List String) → List (List String)
  | [], _ => []
  | p :: r, values =>
    if p.many then values.flatten :: allot r []
    else values.headD [] :: allot r values.tail

/-- The arguments of a command, once all were read. -/
def finishCommand (args : List Positional) (make : List (List String) → Option α) (r : Reading) :
    Except UsageFault (Option String × α) := do
  let r ← r.settle
  if (args.drop r.values.length).any (·.required) then throw .missingArgument
  match make (allot args r.values) with
  | some a => return (r.ns, a)
  | none => throw .missingArgument

/-- Reads the arguments of a command. -/
def readCommand (args : List Positional) (make : List (List String) → Option α) (r : Reading) :
    List String → Except UsageFault (Option String × α)
  | [] => finishCommand args make r
  | a :: rest => do
    match (r.optional false a).or (r.place a) with
    | some r => readCommand args make (← r) rest
    | none => throw .unknownArgument

/-- Reads the arguments of a group of commands up to the name of one, and what follows with
`enter`. -/
def readGroup (versioned : Bool) (commands : List (String × Usage α))
    (enter : Usage α → List String → Except UsageFault (Option String × α)) (r : Reading) :
    List String → Except UsageFault (Option String × α)
  | [] => do
    let r ← r.settle
    throw (if r.ns.isSome then .missingCommand else .nothingSaid)
  | a :: rest => do
    let named := if r.expectsCommand then find? a commands else none
    match named with
    | some u =>
      -- What stands before the name is settled last, so a fault further on is told first.
      let (ns, found) ← enter u rest
      let r ← r.settle
      return (ns.or r.ns, found)
    | none =>
      -- `help` is a command of every group, and comes after the group's own.
      if r.expectsCommand ∧ a = "help" then throw (help (.group versioned commands) rest)
      else match r.optional versioned a with
        | some r => readGroup versioned commands enter (← r) rest
        | none =>
          throw (if r.literal ∧ ((find? a commands).isSome ∨ a = "help") then .unknownArgument
            else .unknownCommand)

/-- Reads arguments, entering at most `depth` groups. -/
def readWithin : Nat → Usage α → List String → Except UsageFault (Option String × α)
  | _, .command args make, l => readCommand args make { left := args } l
  | 0, .group .., _ => .error .unknownCommand
  | n + 1, .group versioned commands, l =>
    readGroup versioned commands (readWithin n) { left := [] } l

/-- The command that arguments name, and the namespace: of one given in several places the last
counts. -/
def read (u : Usage α) (l : List String) : Except UsageFault (Option String × α) :=
  readWithin (l.length + 1) u l

end Usage

end InnerLoop
