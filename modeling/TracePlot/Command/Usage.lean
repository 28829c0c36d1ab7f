import TracePlot.Number.Literal

/-! Options of a command line: which ones there are, which values they take, and how arguments
are divided among them. -/

namespace TracePlot.Command

/-- Why a command line is refused, or answered by a text instead of being run. -/
inductive Usage where
  | unknownArgument
  | argumentConflict
  | invalidValue
  | valueValidation
  | wrongNumberOfValues
  | tooManyValues
  | missingRequiredArgument
  | invalidSubcommand
  | displayHelpOnMissingArgumentOrSubcommand
  | displayHelp
  | displayVersion
  deriving Repr, DecidableEq

def Usage.message : Usage → String
  | .unknownArgument => "error: unexpected argument"
  | .argumentConflict => "error: an argument cannot be used more than once"
  | .invalidValue => "error: a value is missing"
  | .valueValidation => "error: invalid value"
  | .wrongNumberOfValues => "error: wrong number of values"
  | .tooManyValues => "error: unexpected value"
  | .missingRequiredArgument => "error: a required argument was not provided"
  | .invalidSubcommand => "error: unrecognized command"
  | .displayHelpOnMissingArgumentOrSubcommand => "error: a command is required"
  | .displayHelp => ""
  | .displayVersion => ""

inductive ValueKind where
  | path
  | text
  | integer
  | number
  deriving Repr, DecidableEq

def ValueKind.check (kind : ValueKind) (value : String) : Except Usage Unit :=
  match kind with
  | .path => if value.isEmpty then .error .invalidValue else .ok ()
  | .text => .ok ()
  | .integer =>
    match Number.integer 10 Number.minInt32 Number.maxInt32 value.toList with
    | .ok _ => .ok ()
    | .error _ => .error .valueValidation
  | .number => if (Number.float? value).isSome then .ok () else .error .valueValidation

/-- How many values belong to one use of an option. -/
inductive Arity where
  | none
  | exactly (n : Nat)
  | several
  deriving Repr, DecidableEq

def Arity.acceptsMore : Arity → Nat → Bool
  | .none, _ => false
  | .exactly n, given => given < n
  | .several, _ => true

def Arity.check (arity : Arity) (given : Nat) : Except Usage Unit :=
  match arity with
  | .none => .ok ()
  | .exactly n =>
    if given = 0 then .error .invalidValue
    else if given ≠ n then .error .wrongNumberOfValues
    else .ok ()
  | .several => if given = 0 then .error .invalidValue else .ok ()

structure Parameter where
  long : String
  short : Option Char := .none
  arity : Arity := .none
  kind : ValueKind := .text
  /-- Whether a second use adds to the first. -/
  appends : Bool := false
  /-- Whether a negative number counts as a value. -/
  negative : Bool := false
  deriving Repr, DecidableEq

structure Grammar where
  options : List Parameter
  positional : List Parameter := []
  required : List String := []

abbrev Uses := List (String × List String)

def valuesOf (uses : Uses) (name : String) : List String :=
  (uses.filter fun u => u.1 = name).flatMap (·.2)

def isUsed (uses : Uses) (name : String) : Bool :=
  uses.any fun u => u.1 = name

structure Scan where
  uses : Uses := []
  /-- The latest parameter, whose values are not checked yet. -/
  pending : Option (Parameter × List String) := .none
  /-- Whether the next argument may be a value of the pending option. -/
  isOpen : Bool := false
  positional : List Parameter
  /-- Whether all arguments are positional from here on. -/
  trailing : Bool := false

namespace Scan

/-- Checks a use: first how many values it has, then whether it repeats another, then each
value. -/
def use (s : Scan) (p : Parameter) (values : List String) : Except Usage Scan := do
  p.arity.check values.length
  if !p.appends && isUsed s.uses p.long then .error .argumentConflict
  else
    values.forM p.kind.check
    pure { s with uses := s.uses ++ [(p.long, values)] }

def settle (s : Scan) : Except Usage Scan :=
  match s.pending with
  | .none => .ok s
  | some (p, values) => { s with pending := .none, isOpen := false }.use p values

def takeOption (s : Scan) (p : Parameter) (attached : Option String) : Except Usage Scan := do
  match p.arity, attached with
  | .none, some _ => .error .tooManyValues
  | .none, .none =>
    let s ← s.settle
    if p.long = "help" then .error .displayHelp
    else s.use p []
  | _, some value => (← s.settle).use p [value]
  | _, .none => pure { ← s.settle with pending := some (p, []), isOpen := true }

def takePositional (s : Scan) (value : String) : Except Usage Scan :=
  match s.positional with
  | [] => .error .unknownArgument
  | p :: rest => do
    let s ← s.settle
    pure { s with pending := some (p, [value]), isOpen := false, positional := rest }

def takeValue (s : Scan) (value : String) : Scan :=
  match s.pending with
  | .none => s
  | some (p, values) =>
    let values := values ++ [value]
    { s with pending := some (p, values), isOpen := p.arity.acceptsMore values.length }

def takePlain (s : Scan) (arg : String) : Except Usage Scan :=
  if s.isOpen then .ok (s.takeValue arg) else s.takePositional arg

end Scan

/-- Digits with at most one point, not in front, and an exponent that has digits. -/
def isUnsignedNumber (pointAllowed : Bool) : List Char → Bool
  | [] => true
  | 'e' :: rest => !rest.isEmpty && rest.all Number.isDigit
  | '.' :: rest => pointAllowed && isUnsignedNumber false rest
  | c :: rest => Number.isDigit c && isUnsignedNumber pointAllowed rest

/-- Whether the characters after a dash make it a negative number. -/
def isNumberTail : List Char → Bool
  | [] => true
  | c :: rest => Number.isDigit c && isUnsignedNumber true rest

def splitLong (cs : List Char) : String × Option String :=
  match cs.span (· ≠ '=') with
  | (name, []) => (String.ofList name, .none)
  | (name, _ :: value) => (String.ofList name, some (String.ofList value))

namespace Grammar

variable (g : Grammar)

/-- Takes in the letters after one dash. The first option with values takes the rest. -/
def takeLetters (s : Scan) : List Char → Except Usage Scan
  | [] => .ok s
  | c :: rest =>
    match g.options.find? fun p => p.short = some c with
    | .none => .error .unknownArgument
    | some p =>
      if p.arity = .none then do
        let s ← s.takeOption p .none
        takeLetters s rest
      else
        match rest with
        | [] => s.takeOption p .none
        | '=' :: value => s.takeOption p (some (String.ofList value))
        | value => s.takeOption p (some (String.ofList value))

def takeLong (s : Scan) (cs : List Char) : Except Usage Scan :=
  let (name, attached) := splitLong cs
  match g.options.find? fun p => p.long = name with
  | .none => .error .unknownArgument
  | some p => s.takeOption p attached

def take (s : Scan) (arg : String) : Except Usage Scan :=
  if s.trailing then s.takePositional arg
  else
    match arg.toList with
    | ['-', '-'] => .ok { s with trailing := true }
    | '-' :: '-' :: name => g.takeLong s name
    | '-' :: c :: rest =>
      let negative := match s.pending with
        | some (p, _) => s.isOpen && p.negative
        | .none => false
      if negative && isNumberTail (c :: rest) then .ok (s.takeValue arg)
      else g.takeLetters s (c :: rest)
    | _ => s.takePlain arg

def read (args : List String) : Except Usage Uses := do
  let s ← args.foldlM g.take { positional := g.positional }
  let s ← s.settle
  if g.required.all (isUsed s.uses) then pure s.uses else .error .missingRequiredArgument

end Grammar

end TracePlot.Command
