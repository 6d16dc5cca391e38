import ScreenAtlas.Proofs.JoinedText
import ScreenAtlas.Proofs.Nesting
import ScreenAtlas.Proofs.Search
import ScreenAtlas.Screen.Command

/-!
# Command trees are recovered from their declarations

A tree of commands is written down with one declaration on each line: the command is
registered with the variable of its parent, or with the program itself, and is held by a
variable of its own. Any order will do in which parents stand before their children.

The chains are recovered in two steps. The search finds one registration on each line, and
what precedes it on the line names the variable that holds the command. The table of
variables then follows the declarations: after each of them it holds the chain of every
variable that has been declared, so the chain of a receiver is that of the parent.
-/
namespace ScreenAtlas.Text

/-! ## Blanks, words and names -/

/-- Ranges that do not meet share no character: the number of a character in one of them lies
before or behind each of the others. -/
theorem inRanges_eq_false_of_apart {left right : List (Nat × Nat)}
    (apart : ∀ first ∈ left, ∀ second ∈ right, first.2 < second.1 ∨ second.2 < first.1) {c : Char}
    (member : inRanges left c = true) : inRanges right c = false := by
  obtain ⟨first, listed, within⟩ := List.any_eq_true.mp member
  rw [inRanges, List.any_eq_false]
  intro second other
  have := apart first listed second other
  simp only [Bool.and_eq_true, decide_eq_true_eq] at within ⊢
  omega

/-- Letters, figures and the underscore are seven-bit characters from the figures on. The bounds
leave room for the characters between these groups. -/
theorem toNat_of_isAlphanum {c : Char} (lettered : (c.isAlphanum || c == '_') = true) :
    48 ≤ c.toNat ∧ c.toNat < 128 := by
  rcases Bool.or_eq_true_iff.mp lettered with alphanumeric | underscore
  · change ((decide ('A'.val ≤ c.val ∧ c.val ≤ 'Z'.val) || ('a'.val ≤ c.val && c.val ≤ 'z'.val)) ||
      ('0'.val ≤ c.val && c.val ≤ '9'.val)) = true at alphanumeric
    simp only [Bool.or_eq_true, Bool.and_eq_true, decide_eq_true_eq,
      UInt32.le_iff_toNat_le] at alphanumeric
    change (65 ≤ c.toNat ∧ c.toNat ≤ 90 ∨ 97 ≤ c.toNat ∧ c.toNat ≤ 122) ∨
      48 ≤ c.toNat ∧ c.toNat ≤ 57 at alphanumeric
    omega
  · rw [beq_iff_eq.mp underscore]
    decide

/-- Letters, figures and the underscore are characters of words, because words take their
seven-bit characters by this very test. -/
theorem isWord_of_isAlphanum {c : Char} (lettered : (c.isAlphanum || c == '_') = true) :
    isWord c = true := by
  rw [isWord, if_pos (toNat_of_isAlphanum lettered).2]
  exact lettered

/-- No character of a word is blank, because the table of words and that of blanks have no range
in common. -/
theorem isBlank_eq_false_of_isWord {c : Char} (word : isWord c = true) : isBlank c = false := by
  unfold isWord at word
  split at word
  · have upper : inRanges [(48, 127)] c = true := by
      have := toNat_of_isAlphanum word
      simp only [inRanges, List.any_cons, List.any_nil, Bool.or_false, Bool.and_eq_true,
        decide_eq_true_eq]
      omega
    exact inRanges_eq_false_of_apart (by decide) upper
  · exact inRanges_eq_false_of_apart (by decide +kernel) word

/-- A text is an identifier: letters, figures and underscores, with no figure in front. -/
structure IsIdentifier (text : List Char) : Prop where
  filled : text ≠ []
  plain : text.all fun c => c.isAlphanum || c == '_'
  started : text.head?.all fun c => !c.isDigit

namespace IsIdentifier

variable {text : List Char}

/-- An identifier starts like a name: its first character is a letter or an underscore, since no
figure may stand in front. -/
theorem startsName (identifier : IsIdentifier text) {c : Char} (first : text.head? = some c) :
    startsName c = true := by
  have letter := List.all_eq_true.mp identifier.plain c (List.mem_of_mem_head? first)
  have noFigure : c.isDigit = false := by simpa [first] using identifier.started
  simp only [Char.isAlphanum, noFigure, Bool.or_false] at letter
  simp only [Text.startsName, letter, Bool.true_or]

/-- All characters of an identifier are characters of words, also the figures and underscores
behind the first one. -/
theorem isWord (identifier : IsIdentifier text) : ∀ c ∈ text, isWord c = true :=
  fun c member => isWord_of_isAlphanum (List.all_eq_true.mp identifier.plain c member)

/-- All characters of an identifier can stand in the name of a variable, where the dollar sign
would be allowed as well. -/
theorem inName (identifier : IsIdentifier text) :
    ∀ c ∈ text, (Text.isWord c || c == '$') = true := by
  intro c member
  rw [identifier.isWord c member, Bool.true_or]

/-- An identifier has a first character, and this is one of words. So a word goes on wherever an
identifier is entered. -/
theorem exists_cons (identifier : IsIdentifier text) :
    ∃ first letters, text = first :: letters ∧ Text.isWord first = true := by
  obtain ⟨first, letters, rfl⟩ := List.exists_cons_of_ne_nil identifier.filled
  exact ⟨first, letters, rfl, identifier.isWord first List.mem_cons_self⟩

end IsIdentifier

end ScreenAtlas.Text

namespace ScreenAtlas.Screen

open ScreenAtlas.Text

/-! ## Written trees -/

/-- The receiver of the commands at the top of a tree. -/
def program : List Char := "program".toList

/-- A command of a tree: the variable that holds it, its name, and a description of its
arguments behind the name, if there is one. -/
structure TreeCommand where
  holder : List Char
  identifier : IsIdentifier holder
  apart : holder ≠ program
  name : List Char
  filled : name ≠ []
  lettered : name.all isCommandChar
  arguments : Option (List Char)
  unquoted : ∀ text ∈ arguments, text.all fun c => !isQuote c
  deriving DecidableEq

/-- The text that declares a command: its name, and its arguments behind a blank. -/
def TreeCommand.declaration (command : TreeCommand) : List Char :=
  match command.arguments with
  | none => command.name
  | some text => command.name ++ ' ' :: text

/-- A command at its place in a tree: what it is registered with, and the names on the way
to it from the top. -/
structure TreeNode where
  receiver : List Char
  command : TreeCommand
  chain : List (List Char)
  deriving DecidableEq

/-- The commands of a forest below a receiver, whose own chain is given. -/
def nodesBelow (receiver : List Char) (above : List (List Char)) :
    Route.Forest TreeCommand → List TreeNode
  | .empty => []
  | .node command children siblings =>
    let chain := above ++ [command.name]
    ⟨receiver, command, chain⟩ :: nodesBelow command.holder chain children ++
      nodesBelow receiver above siblings

/-- What stands between a receiver and the declaration of its command. -/
def callStart : List Char := ['.', 'c', 'o', 'm', 'm', 'a', 'n', 'd', '(', '"']

namespace TreeNode

variable (node : TreeNode)

/-- What precedes the registration on its line: the declaration of the variable that holds the
command. -/
def assignment : List Char :=
  ['c', 'o', 'n', 's', 't', ' '] ++ node.command.holder ++ [' ', '=', ' ']

/-- The registration, up to the quotation mark that ends the declaration. -/
def registration : List Char :=
  node.receiver ++ (callStart ++ node.command.declaration ++ ['"'])

/-- The line that declares a command, with the bracket and the semicolon that end it. -/
def line : List Char := node.assignment ++ (node.registration ++ [')', ';'])

end TreeNode

/-- Declarations, each on a line of its own. -/
def written (order : List TreeNode) : List Char := ['\n'].intercalate (order.map TreeNode.line)

/-- An order of declarations in which every command stands behind its parent. -/
inductive ParentsFirst : List TreeNode → Prop where
  | nil : ParentsFirst []
  | snoc {earlier : List TreeNode} {node : TreeNode} (ordered : ParentsFirst earlier)
      (known : node.receiver = program ∨
        ∃ parent ∈ earlier, parent.command.holder = node.receiver) :
      ParentsFirst (earlier ++ [node])

/-! ## One registration on each line -/

/-- The name of a variable is read up to the first character outside names. An identifier is such
a name, so it is read as a whole and nothing behind it. -/
theorem variableName?_identifier {name : List Char} (identifier : IsIdentifier name) {stop : Char}
    (rest : List Char) (outside : (isWord stop || stop == '$') = false) :
    variableName? (name ++ stop :: rest) = some (name, stop :: rest) := by
  obtain ⟨first, letters, rfl⟩ := List.exists_cons_of_ne_nil identifier.filled
  have inside : ∀ c ∈ letters, (isWord c || c == '$') = true :=
    fun c member => identifier.inName c (List.mem_cons_of_mem first member)
  simp [variableName?, nameOf?, identifier.startsName rfl, List.takeWhile_append_of_pos inside,
    List.dropWhile_append_of_pos inside, outside]

/-- No character of a command's name is a quotation mark; the class of these characters leaves all
three of them out. -/
theorem isQuote_eq_false_of_isCommandChar {c : Char} (lettered : isCommandChar c = true) :
    isQuote c = false := by
  rw [← Bool.not_eq_true]
  intro quote
  simp only [isQuote, Bool.or_eq_true, beq_iff_eq] at quote
  rcases quote with (rfl | rfl) | rfl
  all_goals exact absurd lettered (by decide)

/-- A declaration is not empty, as it starts with the name of its command and names are not empty.
-/
theorem TreeCommand.declaration_ne_nil (command : TreeCommand) : command.declaration ≠ [] := by
  unfold declaration
  split
  · exact command.filled
  · simp

/-- A declaration holds no quotation mark, neither in the name nor in the arguments. So the mark
behind it is the one that ends it. -/
theorem TreeCommand.isQuote_declaration (command : TreeCommand) :
    ∀ c ∈ command.declaration, isQuote c = false := by
  have named : ∀ c ∈ command.name, isQuote c = false :=
    fun c member => isQuote_eq_false_of_isCommandChar
      (List.all_eq_true.mp command.lettered c member)
  unfold declaration
  split
  · exact named
  · next text given =>
    refine List.forall_mem_append.mpr ⟨named, List.forall_mem_cons.mpr ⟨by decide, ?_⟩⟩
    simpa using command.unquoted text given

/-- A call that registers a command is read up to the end of the declaration: the first quotation
mark behind the opening one closes it. -/
theorem registering?_written (command : TreeCommand) (rest : List Char) :
    registering? (callStart ++ command.declaration ++ '"' :: rest) =
      some (command.declaration, rest) := by
  have named : literal? ".command" (callStart ++ command.declaration ++ '"' :: rest) =
      some ('(' :: '"' :: (command.declaration ++ '"' :: rest)) :=
    after?_append ".command".toList ('(' :: '"' :: (command.declaration ++ '"' :: rest))
  have opened : pastMark? '(' ('(' :: '"' :: (command.declaration ++ '"' :: rest)) =
      some ('"' :: (command.declaration ++ '"' :: rest)) := by
    have bracket : isBlank '(' = false := by decide
    have quote : isBlank '"' = false := by decide
    simp [pastMark?, skipBlanks_cons bracket, skipBlanks_cons quote]
  have closed : run? (fun c => !isQuote c) (command.declaration ++ '"' :: rest) =
      some (command.declaration, '"' :: rest) := by
    refine run?_append rest ?_ command.declaration_ne_nil (by decide)
    exact fun c member => by rw [command.isQuote_declaration c member]; rfl
  have quote : isQuote '"' = true := by decide
  simp only [registering?, named, opened, Option.bind_eq_bind, Option.bind_some, quoted?, quote,
    ↓reduceIte, closed]

/-- A registration is found where its receiver starts, if the receiver is an identifier. It is
read as a whole, with its receiver and the declaration. -/
theorem registration?_written {node : TreeNode} (identifier : IsIdentifier node.receiver)
    (rest : List Char) :
    registration? (some ' ') (node.registration ++ rest) =
      some (⟨some node.receiver, node.command.declaration⟩, rest) := by
  have spelled : node.registration ++ rest = node.receiver ++
      (callStart ++ node.command.declaration ++ '"' :: rest) := by
    simp only [TreeNode.registration, List.append_assoc, List.singleton_append]
  have bounded : wordBoundary (some ' ') (node.registration ++ rest) = true := by
    obtain ⟨first, letters, split, word⟩ := identifier.exists_cons
    have blank : isWord ' ' = false := by decide
    simp [wordBoundary, spelled, split, outsideWord, word, blank]
  have received : variableName? (node.registration ++ rest) = some (node.receiver,
      callStart ++ node.command.declaration ++ '"' :: rest) :=
    spelled ▸ variableName?_identifier identifier _ (by decide)
  have solid : skipBlanks (callStart ++ node.command.declaration ++ '"' :: rest) =
      callStart ++ node.command.declaration ++ '"' :: rest :=
    skipBlanks_cons (by decide) _
  simp only [registration?, bounded, ↓reduceIte, received, solid, registering?_written,
    Option.bind_eq_bind, Option.bind_some]

/-- A call starts with a point, so nothing is registered where another character stands, or none.
-/
theorem registering?_eq_none {text : List Char} (other : text.head? ≠ some '.') :
    registering? text = none := by
  cases text with
  | nil => rfl
  | cons c text =>
    have different : '.' ≠ c := fun same => other (by rw [same]; rfl)
    simp [registering?, literal?, after?, different]

/-- Nothing is registered where neither a point nor a name starts. The induction is on the piece,
since the search looks at each of its places. -/
theorem avoids_marks {piece : List Char}
    (marks : piece.all fun c => !startsName c && c != '.') (rest : List Char) :
    Avoids registration? piece rest := by
  induction piece with
  | nil => trivial
  | cons c piece inductionHypothesis =>
    simp only [List.all_cons, Bool.and_eq_true, Bool.not_eq_true', bne_iff_ne] at marks
    obtain ⟨⟨noName, noPoint⟩, others⟩ := marks
    refine ⟨fun before => ?_, inductionHypothesis others⟩
    have uncalled : registering? (c :: (piece ++ rest)) = none :=
      registering?_eq_none (by simpa using noPoint)
    simp [registration?, variableName?, nameOf?, noName, uncalled]

/-- Nothing is registered with a name that no point follows.

Proof: by induction on the name. At each of its characters the rest of the name is read as
a receiver, and what follows it behind blanks is no call. -/
theorem avoids_name {name : List Char} (inside : name.all fun c => isWord c || c == '$')
    {stop : Char} (outside : (isWord stop || stop == '$') = false) {text : List Char}
    (other : (skipBlanks (stop :: text)).head? ≠ some '.') :
    Avoids registration? name (stop :: text) := by
  induction name with
  | nil => trivial
  | cons c name inductionHypothesis =>
    rw [List.all_cons, Bool.and_eq_true] at inside
    obtain ⟨here, others⟩ := inside
    refine ⟨fun before => ?_, inductionHypothesis others⟩
    have noPoint : c ≠ '.' := by
      rintro rfl
      exact absurd here (by decide)
    have uncalled : registering? (c :: (name ++ stop :: text)) = none :=
      registering?_eq_none (by simpa using noPoint)
    have behind := registering?_eq_none other
    have read : (name ++ stop :: text).dropWhile (fun d => isWord d || d == '$') =
        stop :: text := by
      simp [List.dropWhile_append_of_pos (List.all_eq_true.mp others), outside]
    by_cases named : startsName c = true
    · simp [registration?, variableName?, nameOf?, named, read, behind, uncalled]
    · simp [registration?, variableName?, nameOf?, named, uncalled]

/-- What precedes the registration on its line registers nothing: the keyword and the variable are
names that no point follows, and the marks between them start no name. -/
theorem TreeNode.avoids_assignment (node : TreeNode) (rest : List Char) :
    Avoids registration? node.assignment rest := by
  have spelled : node.assignment =
      ['c', 'o', 'n', 's', 't'] ++ ([' '] ++ (node.command.holder ++ [' ', '=', ' '])) := by
    simp [TreeNode.assignment]
  have gap : isBlank ' ' = true := by decide
  rw [spelled, avoids_append, avoids_append, avoids_append]
  refine ⟨?_, avoids_marks (by decide) _, ?_, avoids_marks (by decide) _⟩
  · refine avoids_name (by decide) (by decide) ?_
    obtain ⟨first, letters, split, word⟩ := node.command.identifier.exists_cons
    have other : first ≠ '.' := by
      rintro rfl
      exact absurd word (by decide)
    simp [skipBlanks, gap, split, isBlank_eq_false_of_isWord word, other]
  · refine avoids_name (List.all_eq_true.mpr node.command.identifier.inName) (by decide) ?_
    have solid : isBlank '=' = false := by decide
    simp [skipBlanks, gap, solid]

/-- A blank starts no name and is no point, because it is no character of words and neither of the
two signs. -/
theorem not_startsName_of_isBlank {c : Char} (blank : isBlank c = true) :
    (!startsName c && c != '.') = true := by
  rw [Bool.and_eq_true, Bool.not_eq_true', bne_iff_ne]
  constructor
  · rw [← Bool.not_eq_true]
    intro named
    have solid : isBlank c = false := by
      simp only [startsName, Bool.or_eq_true, beq_iff_eq] at named
      rcases named with (letter | rfl) | rfl
      · apply isBlank_eq_false_of_isWord
        apply isWord_of_isAlphanum
        simp [Char.isAlphanum, letter]
      · decide
      · decide
    simp [solid] at blank
  · rintro rfl
    exact absurd blank (by decide)

/-- Nothing is registered in blanks, which start no name and are no points. This covers what may
follow the last line. -/
theorem avoids_blanks {piece : List Char} (blank : piece.all isBlank) (rest : List Char) :
    Avoids registration? piece rest := by
  apply avoids_marks
  rw [List.all_eq_true]
  intro c member
  exact not_startsName_of_isBlank (List.all_eq_true.mp blank c member)

/-- The search finds exactly one registration on the line of a command, behind the assignment. It
then goes on with what follows the line. -/
theorem hitsFrom_line {node : TreeNode} (identifier : IsIdentifier node.receiver)
    (rest : List Char) (offset : Nat) (before : Option Char) :
    hitsFrom registration? 0 offset before (node.line ++ rest) =
      ⟨offset + node.assignment.length, node.registration.length,
          ⟨some node.receiver, node.command.declaration⟩⟩ ::
        hitsFrom registration? 0 (offset + node.line.length) (lastOr before node.line) rest := by
  have filled : node.registration ≠ [] := by simp [TreeNode.registration]
  have spaced : lastOr before node.assignment = some ' ' := by
    rw [TreeNode.assignment, show [' ', '=', ' '] = [' ', '='] ++ [' '] from rfl,
      ← List.append_assoc, lastOr_concat]
  have ended : Avoids registration? [')', ';'] rest := avoids_marks (by decide) rest
  have found := registration?_written identifier ([')', ';'] ++ rest)
  rw [← spaced] at found
  have spelled : node.line ++ rest =
      node.assignment ++ (node.registration ++ ([')', ';'] ++ rest)) := by
    simp only [TreeNode.line, List.append_assoc]
  have width : offset + node.line.length =
      offset + node.assignment.length + node.registration.length + [')', ';'].length := by
    simp only [TreeNode.line, List.length_append, Nat.add_assoc]
  rw [spelled, hitsFrom_append (node.avoids_assignment _), hitsFrom_hit found filled,
    hitsFrom_append ended, ← lastOr_append, ← lastOr_append, width,
    TreeNode.line]

/-- What precedes the registration on its line declares the variable that holds the command, and
nothing is left between this and the registration. -/
theorem TreeNode.assignmentTail?_assignment (node : TreeNode) (before : Option Char) :
    assignmentTail? before node.assignment = some (node.command.holder, []) := by
  have spelled : node.assignment = ['c', 'o', 'n', 's', 't'] ++
      ([' '] ++ (node.command.holder ++ ' ' :: ['=', ' '])) := by
    simp [TreeNode.assignment]
  have opened : oneOf? ["const", "let", "var"] node.assignment =
      some ("const", [' '] ++ (node.command.holder ++ ' ' :: ['=', ' '])) := by
    rw [spelled]
    rfl
  have spaced : run? isBlank ([' '] ++ (node.command.holder ++ ' ' :: ['=', ' '])) =
      some ([' '], node.command.holder ++ ' ' :: ['=', ' ']) := by
    obtain ⟨first, letters, split, word⟩ := node.command.identifier.exists_cons
    rw [split]
    exact run?_append _ (List.all_eq_true.mp (by decide)) (by decide)
      (isBlank_eq_false_of_isWord word)
  have named : variableName? (node.command.holder ++ ' ' :: ['=', ' ']) =
      some (node.command.holder, [' ', '=', ' ']) :=
    variableName?_identifier node.command.identifier ['=', ' '] (by decide)
  have closed : pastMark? '=' [' ', '=', ' '] = some [] := by decide
  simp only [assignmentTail?, opened, spaced, named, closed, Option.bind_eq_bind, Option.bind_some]

/-- The variable that holds a command is found behind any lines that precede, since the search for
it starts behind the last line break. -/
theorem TreeNode.assignedTo?_assignment (node : TreeNode) {front : List Char}
    (started : front = [] ∨ ∃ lines, front = lines ++ ['\n']) :
    assignedTo? (front ++ node.assignment) = some node.command.holder := by
  have whole : '\n' ∉ node.assignment := by
    have held : '\n' ∉ node.command.holder := by
      intro member
      exact absurd (node.command.identifier.isWord '\n' member) (by decide)
    simp [TreeNode.assignment, held]
  have unbroken : ∀ c ∈ node.assignment.reverse, (c != '\n') = true := by
    intro c member
    exact bne_iff_ne.mpr fun same => whole (same ▸ List.mem_reverse.mp member)
  have line : ((front ++ node.assignment).reverse.takeWhile (· != '\n')).reverse =
      node.assignment := by
    rw [List.reverse_append, List.takeWhile_append_of_pos unbroken]
    rcases started with rfl | ⟨lines, rfl⟩
    · simp
    · simp
  have nothing : Avoids assignmentTail? [] node.assignment := trivial
  have found := first?_append nothing (node.assignmentTail?_assignment _)
    (by simp [TreeNode.assignment])
  rw [assignedTo?, line, ← List.nil_append node.assignment, found]
  rfl

/-- The name of a command is read off its declaration: a blank ends it, or the declaration is the
name. -/
theorem TreeCommand.commandName?_declaration (command : TreeCommand) :
    commandName? command.declaration = some command.name := by
  have solid : ∀ c ∈ command.name, isBlank c = false := by
    intro c member
    have lettered := List.all_eq_true.mp command.lettered c member
    simp only [isCommandChar, Bool.or_eq_true, beq_iff_eq] at lettered
    rcases lettered with (word | rfl) | rfl
    · exact isBlank_eq_false_of_isWord word
    · decide
    · decide
  have own := fields_of_clear command.filled solid
  have spelled : ∃ others, words command.declaration = command.name :: others := by
    unfold declaration
    split
    · exact ⟨[], own⟩
    · next text _ =>
      refine ⟨words text, ?_⟩
      rw [words, fields_append_cons _ _ (by decide), own]
      rfl
  obtain ⟨others, split⟩ := spelled
  rw [commandName?, split]
  simpa using command.lettered

/-! ## The table of variables -/

/-- Takes in a declaration whose parent, name and variable have been read. -/
def CommandTable.enter (table : CommandTable) (node : TreeNode) : CommandTable :=
  let chain := (table.holders.lookup node.receiver).getD [] ++ [node.command.name]
  { chains := Route.addNew table.chains chain
    holders := (node.command.holder, chain) :: table.holders }

/-- The registration on a line is taken in as the declaration that the line is: its variable is
read off the text in front, its receiver and its name off the hit. -/
theorem CommandTable.register_line (table : CommandTable) (node : TreeNode)
    {front : List Char} (rest : List Char)
    (started : front = [] ∨ ∃ lines, front = lines ++ ['\n']) :
    table.register (front ++ (node.line ++ rest))
        ⟨front.length + node.assignment.length, node.registration.length,
          ⟨some node.receiver, node.command.declaration⟩⟩ = table.enter node := by
  have preceding : (front ++ (node.line ++ rest)).take (front.length + node.assignment.length) =
      front ++ node.assignment := by
    rw [TreeNode.line, List.append_assoc, ← List.append_assoc, ← List.length_append,
      List.take_left]
  simp only [CommandTable.register, node.command.commandName?_declaration, preceding,
    node.assignedTo?_assignment started, Option.bind_some]
  rfl

/-- All declarations are taken in one after the other.

Proof: by induction on the declarations, with the lines in front of them left open. The
search passes over what separates two lines and over what follows the last one. -/
theorem CommandTable.register_written {order : List TreeNode}
    (identifiers : ∀ node ∈ order, IsIdentifier node.receiver) {ending : List Char}
    (blank : ending.all isBlank) {front : List Char}
    (started : front = [] ∨ ∃ lines, front = lines ++ ['\n']) (table : CommandTable) :
    (hitsFrom registration? 0 front.length (lastOr none front) (written order ++ ending)).foldl
        (CommandTable.register (front ++ (written order ++ ending))) table =
      order.foldl CommandTable.enter table := by
  have noneBehind (offset : Nat) (before : Option Char) :
      hitsFrom registration? 0 offset before ending = [] := by
    have passed := hitsFrom_append (avoids_blanks blank []) offset before
    rw [List.append_nil] at passed
    exact passed
  induction order generalizing front table with
  | nil =>
    rw [written, List.map_nil, List.intercalate_nil, List.nil_append, noneBehind]
    rfl
  | cons node rest inductionHypothesis =>
    obtain ⟨own, others⟩ := List.forall_mem_cons.mp identifiers
    cases rest with
    | nil =>
      rw [written, List.map_singleton, List.intercalate_singleton, hitsFrom_line own, noneBehind,
        List.foldl_cons, List.foldl_nil, table.register_line node ending started]
      rfl
    | cons next rest =>
      have split : written (node :: next :: rest) ++ ending =
          node.line ++ (['\n'] ++ (written (next :: rest) ++ ending)) := by
        simp [written, List.intercalate_cons_cons]
      have passed : front ++ (node.line ++ (['\n'] ++ (written (next :: rest) ++ ending))) =
          front ++ node.line ++ ['\n'] ++ (written (next :: rest) ++ ending) := by
        simp only [List.append_assoc]
      have reached : front.length + node.line.length + ['\n'].length =
          (front ++ node.line ++ ['\n']).length := by
        simp only [List.length_append]
      rw [split, hitsFrom_line own, List.foldl_cons, table.register_line node _ started,
        hitsFrom_append (avoids_blanks (by decide) _), ← lastOr_append, ← lastOr_append, passed,
        reached, ← List.append_assoc front node.line ['\n'], List.foldl_cons]
      exact inductionHypothesis others (Or.inr ⟨_, rfl⟩) (table.enter node)

/-- The table follows declarations: it lists their distinct chains, every variable holds the
chain of its command, and the program holds none. -/
structure CommandTable.Follows (table : CommandTable) (earlier : List TreeNode) : Prop where
  chains : table.chains = Route.distinct (earlier.map TreeNode.chain)
  holds : ∀ node ∈ earlier, table.holders.lookup node.command.holder = some node.chain
  rootless : table.holders.lookup program = none

/-- A command stands below the program, or below an earlier one. -/
def TreeNode.Follows (node : TreeNode) (earlier : List TreeNode) : Prop :=
  (node.receiver = program ∧ node.chain = [node.command.name]) ∨
    ∃ parent ∈ earlier, node.receiver = parent.command.holder ∧
      node.chain = parent.chain ++ [node.command.name]

/-- The table keeps following when a declaration is taken in whose variable is new. The chain of
the receiver is known, and the new entry hides none of the older ones. -/
theorem CommandTable.Follows.enter {table : CommandTable} {earlier : List TreeNode}
    (follows : table.Follows earlier) {node : TreeNode} (placed : node.Follows earlier)
    (fresh : ∀ other ∈ earlier, other.command.holder ≠ node.command.holder) :
    (table.enter node).Follows (earlier ++ [node]) := by
  have chain : (table.holders.lookup node.receiver).getD [] ++ [node.command.name] =
      node.chain := by
    rcases placed with ⟨top, alone⟩ | ⟨parent, member, below, extended⟩
    · rw [top, follows.rootless, alone]
      rfl
    · rw [below, follows.holds parent member, extended]
      rfl
  constructor
  · rw [List.map_append, Route.distinct, List.foldl_append]
    simp only [CommandTable.enter, chain, follows.chains]
    rfl
  · intro other member
    simp only [CommandTable.enter, chain]
    rcases List.mem_append.mp member with old | new
    · rw [List.lookup_cons, beq_false_of_ne (fresh other old)]
      exact follows.holds other old
    · rw [List.mem_singleton.mp new, List.lookup_cons_self]
  · simp only [CommandTable.enter]
    rw [List.lookup_cons, beq_false_of_ne (Ne.symm node.command.apart)]
    exact follows.rootless

/-! ## Chains of a tree -/

/-- The commands of a forest below any receiver are the labels of the forest in document order.
The receiver and the chain above only add to them. -/
theorem map_command_nodesBelow (forest : Route.Forest TreeCommand) (receiver : List Char)
    (above : List (List Char)) :
    (nodesBelow receiver above forest).map TreeNode.command = forest.labels := by
  induction forest generalizing receiver above with
  | empty => rfl
  | node command children siblings below beside =>
    simp only [nodesBelow, Route.Forest.labels, List.map_append, List.map_cons, below, beside]

/-- A command of a forest is registered with what the forest hangs below, or with the
variable of another command of the forest, whose chain it extends. -/
theorem placed_of_mem_nodesBelow {forest : Route.Forest TreeCommand} {receiver : List Char}
    {above : List (List Char)} {node : TreeNode}
    (member : node ∈ nodesBelow receiver above forest) :
    (node.receiver = receiver ∧ node.chain = above ++ [node.command.name]) ∨
      ∃ parent ∈ nodesBelow receiver above forest, node.receiver = parent.command.holder ∧
        node.chain = parent.chain ++ [node.command.name] := by
  induction forest generalizing receiver above with
  | empty => cases member
  | node command children siblings below beside =>
    rcases List.mem_append.mp member with inside | behind
    · rcases List.mem_cons.mp inside with rfl | deeper
      · exact Or.inl ⟨rfl, rfl⟩
      · rcases below deeper with ⟨received, extended⟩ | ⟨parent, listed, link⟩
        · exact Or.inr ⟨_, List.mem_append_left _ List.mem_cons_self, received, extended⟩
        · exact Or.inr ⟨parent,
            List.mem_append_left _ (List.mem_cons_of_mem _ listed), link⟩
    · rcases beside behind with top | ⟨parent, listed, link⟩
      · exact Or.inl top
      · exact Or.inr ⟨parent, List.mem_append_right _ listed, link⟩

/-- What a command of a tree is registered with is an identifier: the program itself, or the
variable of another command. -/
theorem isIdentifier_receiver {forest : Route.Forest TreeCommand} {node : TreeNode}
    (member : node ∈ nodesBelow program [] forest) : IsIdentifier node.receiver := by
  rcases placed_of_mem_nodesBelow member with ⟨top, _⟩ | ⟨parent, _, below, _⟩
  · rw [top]
    exact ⟨by decide, by decide, by decide⟩
  · rw [below]
    exact parent.command.identifier

/-- A command follows what was declared before as soon as its parent is among it. The variables
are distinct, so the known receiver is the variable of this parent and of no other command. -/
theorem follows_of_known {forest : Route.Forest TreeCommand}
    (distinct : (forest.labels.map TreeCommand.holder).Nodup) {earlier : List TreeNode}
    (listed : ∀ other ∈ earlier, other ∈ nodesBelow program [] forest) {node : TreeNode}
    (member : node ∈ nodesBelow program [] forest)
    (known : node.receiver = program ∨
      ∃ parent ∈ earlier, parent.command.holder = node.receiver) : node.Follows earlier := by
  rcases placed_of_mem_nodesBelow member with ⟨top, alone⟩ | ⟨parent, present, below, extended⟩
  · exact Or.inl ⟨top, alone⟩
  · rcases known with top | ⟨other, before, holds⟩
    · exact absurd (below.symm.trans top) parent.command.apart
    · rw [← map_command_nodesBelow forest program [], List.map_map] at distinct
      obtain rfl := List.inj_on_of_nodup_map distinct present (listed other before)
        (below.symm.trans holds.symm)
      exact Or.inr ⟨parent, before, below, extended⟩

/-- After all declarations the table follows them.

Proof: by induction on the order, in which every command stands behind its parent. Each step takes
in one more declaration, whose variable is new. -/
theorem CommandTable.follows_order {forest : Route.Forest TreeCommand}
    (distinct : (forest.labels.map TreeCommand.holder).Nodup) {order : List TreeNode}
    (ordered : ParentsFirst order) (listed : ∀ node ∈ order, node ∈ nodesBelow program [] forest)
    (fresh : (order.map fun node => node.command.holder).Nodup) :
    (order.foldl CommandTable.enter {}).Follows order := by
  induction ordered with
  | nil => exact ⟨rfl, List.forall_mem_nil _, rfl⟩
  | @snoc earlier node ordered known inductionHypothesis =>
    obtain ⟨before, last⟩ := List.forall_mem_append.mp listed
    rw [List.map_append, List.nodup_append] at fresh
    rw [List.foldl_append, List.foldl_cons, List.foldl_nil]
    apply (inductionHypothesis before fresh.1).enter
    · exact follows_of_known distinct before (last node List.mem_cons_self) known
    · intro other member same
      exact fresh.2.2 _ (List.mem_map_of_mem member) _ (by simp) same

/-- Command trees are recovered. A tree of commands, whose variables are distinct, is written
with one declaration on each line, in any order in which parents stand before their
children, and blanks may follow. Then the chains that are found are the names on the way
from the top to each command, in the order of the declarations, each distinct chain once. -/
theorem commandChains_recover_tree (forest : Route.Forest TreeCommand)
    (distinct : (forest.labels.map TreeCommand.holder).Nodup) (order : List TreeNode)
    (listing : order.Perm (nodesBelow program [] forest)) (ordered : ParentsFirst order)
    (ending : List Char) (blank : ending.all isBlank) :
    commandChains (written order ++ ending) = Route.distinct (order.map TreeNode.chain) ∧
      (commandChains (written order ++ ending)).Nodup ∧
      ∀ chain, chain ∈ commandChains (written order ++ ending) ↔
        ∃ node ∈ nodesBelow program [] forest, node.chain = chain := by
  have listed : ∀ node ∈ order, node ∈ nodesBelow program [] forest :=
    fun node member => listing.mem_iff.mp member
  have fresh : (order.map fun node => node.command.holder).Nodup := by
    rw [← map_command_nodesBelow forest program [], List.map_map] at distinct
    exact (listing.map _).nodup_iff.mpr distinct
  have taken := CommandTable.register_written
    (fun node member => isIdentifier_receiver (listed node member)) blank (Or.inl rfl) {}
  have recovered : commandChains (written order ++ ending) =
      Route.distinct (order.map TreeNode.chain) := by
    rw [← (CommandTable.follows_order distinct ordered listed fresh).chains, ← taken]
    rfl
  refine ⟨recovered, ?_, fun chain => ?_⟩
  · rw [recovered]
    simpa [Route.distinct] using Route.gathersBy_addNew.nodup (order.map TreeNode.chain)
  · rw [recovered, Route.distinct, Route.mem_foldl_addNew]
    simp [listing.mem_iff]

/-- A command at the top of a tree, without arguments. -/
def userCommand : TreeCommand :=
  { holder := "user_1".toList, identifier := ⟨by decide, by decide, by decide⟩, apart := by decide
    name := "user".toList, filled := by decide, lettered := by decide
    arguments := none, unquoted := by decide }

/-- A command below it, with arguments that look like a call. -/
def addCommand : TreeCommand :=
  { holder := "add".toList, identifier := ⟨by decide, by decide, by decide⟩, apart := by decide
    name := "add:all".toList, filled := by decide, lettered := by decide
    arguments := some "<x.command(y)> [z]".toList, unquoted := by decide }

/-- A command of the same name beside it, held by another variable. -/
def addAgainCommand : TreeCommand :=
  { addCommand with
    holder := "_2".toList, identifier := ⟨by decide, by decide, by decide⟩, apart := by decide }

/-- Another command at the top, held by a variable that is spelled like a keyword. -/
def dryRunCommand : TreeCommand :=
  { holder := "const".toList, identifier := ⟨by decide, by decide, by decide⟩, apart := by decide
    name := "dry-run".toList, filled := by decide, lettered := by decide
    arguments := none, unquoted := by decide }

/-- The tree of these commands, two at the top and two below the second. -/
def sampleForest : Route.Forest TreeCommand :=
  .node dryRunCommand .empty
    (.node userCommand (.node addCommand .empty (.node addAgainCommand .empty .empty)) .empty)

/-- The declarations of the sample, in another order than that of the tree. -/
def sampleOrder : List TreeNode :=
  [⟨program, userCommand, ["user".toList]⟩,
    ⟨"user_1".toList, addAgainCommand, ["user".toList, "add:all".toList]⟩,
    ⟨program, dryRunCommand, ["dry-run".toList]⟩,
    ⟨"user_1".toList, addCommand, ["user".toList, "add:all".toList]⟩]

/-- The sample is recovered from its lines: the two commands of one name share a chain. -/
theorem sampleForest_is_recovered :
    sampleOrder.map (fun node => String.ofList node.line) =
        ["const user_1 = program.command(\"user\");",
          "const _2 = user_1.command(\"add:all <x.command(y)> [z]\");",
          "const const = program.command(\"dry-run\");",
          "const add = user_1.command(\"add:all <x.command(y)> [z]\");"] ∧
      commandChains (written sampleOrder ++ ['\n']) =
        [["user".toList], ["user".toList, "add:all".toList], ["dry-run".toList]] := by
  have ordered : ParentsFirst sampleOrder := by
    change ParentsFirst (((([] ++ [_]) ++ [_]) ++ [_]) ++ [_])
    refine .snoc (.snoc (.snoc (.snoc .nil ?_) ?_) ?_) ?_
    · exact Or.inl rfl
    · exact Or.inr ⟨_, List.mem_cons_self, rfl⟩
    · exact Or.inl rfl
    · exact Or.inr ⟨_, List.mem_cons_self, rfl⟩
  have recovered := commandChains_recover_tree sampleForest (by decide) sampleOrder (by decide)
    ordered ['\n'] (by decide)
  exact ⟨by decide +kernel, recovered.1.trans (by decide)⟩

end ScreenAtlas.Screen
