import ScreenAtlas.Number.Numeral
import ScreenAtlas.Text.Quote
import ScreenAtlas.Text.Scan

/-!
# Options of a command line

An option has short names of one letter and long names of a word. A long name may be
cut short as long as only one name starts that way, and its argument may follow an
equals sign. Short names that take no argument may be written together. Negative
numbers and arguments with a space in them are no options, even when they start with
a hyphen.
-/
namespace ScreenAtlas.Command

open ScreenAtlas.Text

/-- What an option takes. -/
inductive Takes where
  /-- Nothing: the option is switched on. -/
  | nothing
  /-- Nothing: the option asks for help. -/
  | help
  /-- Any word. -/
  | word
  /-- A whole number. -/
  | number
  deriving DecidableEq, Repr

/-- An argument belongs to the option. -/
def Takes.hasArgument : Takes → Bool
  | word | number => true
  | nothing | help => false

/-- An option: its names, what it takes, and whether it has to be given. -/
structure OptionRule where
  names : List String
  takes : Takes := .nothing
  required : Bool := false
  deriving DecidableEq, Repr

/-- The option as messages name it. -/
def OptionRule.title (rule : OptionRule) : String := "/".intercalate rule.names

/-- Why the reading of a command line ends early. -/
inductive Stop where
  /-- The help of a program was asked for. -/
  | help (program : String)
  /-- A program is misused. -/
  | misuse (program message : String)
  deriving DecidableEq, Repr

/-- The misuse of one option or operand. -/
def Stop.ofArgument (program title message : String) : Stop :=
  .misuse program ("argument " ++ title ++ ": " ++ message)

/-- A text in quotes, as messages show it. -/
def quote (text : String) : String := String.ofList (showText text.toList)

/-- Text that is written together with the name of an option. -/
structure Attached where
  afterEquals : Bool
  text : List Char
  deriving DecidableEq, Repr

/-- What one argument of a command line is. -/
inductive Reading where
  /-- No option. -/
  | operand
  /-- An option under one of its names. -/
  | known (rule : OptionRule) (name : String) (attached : Option Attached)
  /-- Something that looks like an option and is none. -/
  | unknown
  deriving DecidableEq, Repr

/-- Every name of every option, in order. -/
def spellings (rules : List OptionRule) : List (OptionRule × String) :=
  rules.flatMap fun rule => rule.names.map fun name => (rule, name)

/-- The option with a name. -/
def exactly? (rules : List OptionRule) (name : List Char) : Option OptionRule :=
  ((spellings rules).find? fun (_, spelling) => spelling.toList == name).map Prod.fst

/-- What stands before and behind the first equals sign. -/
def splitEquals (argument : List Char) : List Char × Option Attached :=
  match argument.dropWhile (· != '=') with
  | [] => (argument, none)
  | _ :: text => (argument.takeWhile (· != '='), some ⟨true, text⟩)

/-- The options that an argument may mean when it is the name of none. -/
def candidates (rules : List OptionRule) (argument : List Char) :
    List (OptionRule × String × Option Attached) :=
  match argument with
  | '-' :: '-' :: _ =>
    let (start, attached) := splitEquals argument
    (spellings rules).filterMap fun (rule, name) =>
      if start.isPrefixOf name.toList then some (rule, name, attached) else none
  | first :: second :: rest =>
    (spellings rules).filterMap fun (rule, name) =>
      if name.toList == [first, second] then some (rule, name, some ⟨false, rest⟩)
      else if argument.isPrefixOf name.toList then some (rule, name, none)
      else none
  | _ => []

/-- The text behind a hyphen is a number, with or without a fraction. -/
def isNumber (text : List Char) : Bool :=
  let isDigit := fun c => (digitValue? c).isSome
  let body := (finalBreak text).1
  match body.dropWhile isDigit with
  | [] => !body.isEmpty
  | '.' :: fraction => !fraction.isEmpty && fraction.all isDigit
  | _ => false

/-- Reads one argument. -/
def readArgument (program : String) (rules : List OptionRule) (argument : String) :
    Except Stop Reading :=
  let text := argument.toList
  match text with
  | '-' :: second :: more =>
    let (start, attached) := splitEquals text
    match exactly? rules text, attached.bind fun _ => exactly? rules start with
    | some rule, _ => .ok (.known rule argument none)
    | none, some rule => .ok (.known rule (String.ofList start) attached)
    | none, none =>
      match candidates rules text with
      | [(rule, name, attached)] => .ok (.known rule name attached)
      | [] =>
        if isNumber (second :: more) || text.contains ' ' then .ok .operand else .ok .unknown
      | several =>
        .error (.misuse program ("ambiguous option: " ++ argument ++ " could match " ++
          ", ".intercalate (several.map fun (_, name, _) => name)))
  | _ => .ok .operand

/-- An option that is given, with its argument. -/
structure Given where
  rule : OptionRule
  argument : Option String := none
  deriving DecidableEq, Repr

/-- What one argument gives: options, perhaps an option that waits for its argument,
and perhaps something that is no option. -/
structure Cluster where
  given : List Given := []
  waiting : Option OptionRule := none
  unknown : Option String := none
  deriving DecidableEq, Repr

/-- The name is short. -/
def isShort (name : String) : Bool :=
  match name.toList with
  | _ :: '-' :: _ => false
  | _ => true

/-- An option without anything attached. -/
def Cluster.plain (rule : OptionRule) : Cluster :=
  if rule.takes.hasArgument then { waiting := some rule } else { given := [{ rule }] }

/-- The same with an option in front. -/
def Cluster.cons (rule : OptionRule) (cluster : Cluster) : Cluster :=
  { cluster with given := { rule } :: cluster.given }

/-- The attached text does not belong to the option. -/
def ignoredText (program : String) (rule : OptionRule) (text : List Char) : Stop :=
  .ofArgument program rule.title
    ("ignored explicit argument " ++ String.ofList (showText text))

/-- An option with text attached to it. Behind a short name that takes no argument
further short names may follow. -/
def attachedTo (program : String) (rules : List OptionRule) (rule : OptionRule) (short : Bool)
    (afterEquals : Bool) : List Char → Except Stop Cluster
  | [] =>
    if rule.takes.hasArgument then .ok { given := [{ rule, argument := some "" }] }
    else .error (ignoredText program rule [])
  | [c] =>
    if rule.takes.hasArgument then
      .ok { given := [{ rule, argument := some (String.singleton c) }] }
    else if !short || afterEquals || c == '-' then .error (ignoredText program rule [c])
    else
      match exactly? rules ['-', c] with
      | some next => .ok ((Cluster.plain next).cons rule)
      | none => .ok { given := [{ rule }], unknown := some (String.ofList ['-', c]) }
  | c :: d :: rest =>
    let text := c :: d :: rest
    if rule.takes.hasArgument then
      .ok { given := [{ rule, argument := some (String.ofList text) }] }
    else if !short || afterEquals || c == '-' then .error (ignoredText program rule text)
    else
      match exactly? rules ['-', c] with
      | some next =>
        if d == '=' then (attachedTo program rules next true true rest).map (Cluster.cons rule)
        else (attachedTo program rules next true false (d :: rest)).map (Cluster.cons rule)
      | none => .ok { given := [{ rule }], unknown := some (String.ofList ('-' :: text)) }

/-- What an option gives under a name, with or without attached text. -/
def clusterOf (program : String) (rules : List OptionRule) (rule : OptionRule) (name : String) :
    Option Attached → Except Stop Cluster
  | none => .ok (.plain rule)
  | some attached =>
    attachedTo program rules rule (isShort name) attached.afterEquals attached.text

end ScreenAtlas.Command
