import ScreenAtlas.Proofs.KeptScreens

/-!
# Commands are told apart by their paths

Every chain of commands becomes a screen, whose path joins the names by slashes and whose
identifier joins them by colons. No name holds a slash, so that the path of a screen gives
the chain back, and different chains become different screens. A name may well hold a
colon: a subcommand and a command that is spelled with a colon can share an identifier, and
then finalization loses the later one. It loses none exactly when no two registered chains
are spelled alike, in particular when no name holds a colon.
-/
namespace ScreenAtlas.Screen

open ScreenAtlas.Text

/-! ## The chains that a source registers -/

/-- The name of a command: letters of names, and no blanks among them. -/
structure IsCommandName (name : List Char) : Prop where
  filled : name ≠ []
  lettered : ∀ c ∈ name, isCommandChar c = true
  solid : ∀ c ∈ name, isBlank c = false

/-- A chain of commands: at least one name. -/
structure IsChain (chain : List (List Char)) : Prop where
  filled : chain ≠ []
  named : ∀ name ∈ chain, IsCommandName name

/-- The name in a declaration is the name of a command: it is the first word of the text, and all
its characters are letters of names. -/
theorem isCommandName_of_commandName? {declaration name : List Char}
    (found : commandName? declaration = some name) : IsCommandName name := by
  unfold commandName? at found
  split at found
  · next first rest spelled =>
    obtain ⟨lettered, same⟩ := Option.ite_none_right_eq_some.mp found
    obtain rfl := Option.some.inj same
    have listed : first ∈ words declaration := spelled ▸ List.mem_cons_self
    obtain ⟨filled, solid⟩ := of_mem_fields listed
    exact ⟨filled, by simpa using lettered, solid⟩
  · cases found

/-- The table holds chains of commands only, listed and held by variables. -/
structure CommandTable.Sound (table : CommandTable) : Prop where
  chains : ∀ chain ∈ table.chains, IsChain chain
  holders : ∀ holder ∈ table.holders, IsChain holder.2

/-- A registered command extends the chain of its receiver, so a table that holds chains of
commands keeps doing so. -/
theorem CommandTable.Sound.register {table : CommandTable} (sound : table.Sound)
    (content : List Char) (hit : Hit Registration) : (table.register content hit).Sound := by
  unfold CommandTable.register
  split
  · exact sound
  · next name found =>
    have named := isCommandName_of_commandName? found
    have extended : IsChain ((hit.value.receiver.bind fun receiver =>
        table.holders.lookup receiver).getD [] ++ [name]) := by
      refine ⟨by simp, List.forall_mem_append.mpr ⟨?_, by simpa using named⟩⟩
      cases held : hit.value.receiver.bind fun receiver => table.holders.lookup receiver with
      | none => simp
      | some parent =>
        obtain ⟨receiver, _, listed⟩ := Option.bind_eq_some_iff.mp held
        obtain ⟨before, after, whole, _⟩ := List.lookup_eq_some_iff.mp listed
        exact (sound.holders (receiver, parent) (by simp [whole])).named
    constructor
    · dsimp only
      split
      · exact sound.chains
      · exact List.forall_mem_append.mpr ⟨sound.chains, by simpa using extended⟩
    · dsimp only
      split
      · exact List.forall_mem_cons.mpr ⟨extended, sound.holders⟩
      · exact sound.holders

/-- What a source registers are chains of commands, because the table starts empty and every
registration keeps it sound. -/
theorem isChain_of_mem_commandChains {content : List Char} {chain : List (List Char)}
    (member : chain ∈ commandChains content) : IsChain chain := by
  have sound : ((hits registration? content).foldl (CommandTable.register content) {}).Sound :=
    List.foldlRecOn (motive := CommandTable.Sound) _ _ ⟨by simp, by simp⟩
      fun _ sound hit _ => sound.register content hit
  exact sound.chains chain member

/-- The chains that a file registers. -/
def chainsOfFile (file : SourceFile) : List (List (List Char)) :=
  if Script.isScript file.path &&
      registrationMarkers.any fun marker => holds marker file.content.toList then
    commandChains file.content.toList
  else []

/-- Each chain that a file registers becomes a screen, in the order in which the chains are
registered. -/
theorem commandsOfFile_eq (binary : String) (file : SourceFile) :
    commandsOfFile binary file = (chainsOfFile file).map (ofChain binary file) := by
  unfold commandsOfFile chainsOfFile
  dsimp only
  split <;> rfl

/-- The chains that some files register. -/
def registered (files : List SourceFile) : List (List (List Char)) := files.flatMap chainsOfFile

/-- What some files register are chains of commands, whichever file a chain comes from. -/
theorem isChain_of_mem_registered {files : List SourceFile} {chain : List (List Char)}
    (member : chain ∈ registered files) : IsChain chain := by
  obtain ⟨file, _, listed⟩ := List.mem_flatMap.mp member
  unfold chainsOfFile at listed
  split at listed
  · exact isChain_of_mem_commandChains listed
  · cases listed

/-! ## Paths and identifiers of chains -/

/-- The name of a command holds no slash, which is not among the letters of names. -/
theorem IsCommandName.slash_not_mem {name : List Char} (named : IsCommandName name) :
    '/' ∉ name := by
  intro slash
  exact absurd (named.lettered '/' slash) (by decide)

/-- Names joined by slashes start with a letter of a name and not with a slash, as no name is
empty. -/
theorem IsChain.head?_intercalate {chain : List (List Char)} (isChain : IsChain chain) :
    (['/'].intercalate chain).head? ≠ some '/' := by
  obtain ⟨first, rest, rfl⟩ := List.exists_cons_of_ne_nil isChain.filled
  have named := isChain.named first List.mem_cons_self
  obtain ⟨c, letters, rfl⟩ := List.exists_cons_of_ne_nil named.filled
  have starts : (['/'].intercalate ((c :: letters) :: rest)).head? = some c := by
    cases rest <;> simp [List.intercalate_cons_cons]
  rw [starts]
  rintro slash
  exact named.slash_not_mem (Option.some.inj slash ▸ List.mem_cons_self)

/-- Names joined by slashes end in a letter of a name, which is neither a blank nor a slash. -/
theorem IsChain.exists_intercalate_eq {chain : List (List Char)} (isChain : IsChain chain) :
    ∃ front last, ['/'].intercalate chain = front ++ [last] ∧ isBlank last = false ∧
      last ≠ '/' := by
  obtain ⟨filled, named⟩ := isChain
  induction chain with
  | nil => exact absurd rfl filled
  | cons first rest inductionHypothesis =>
    obtain ⟨own, others⟩ := List.forall_mem_cons.mp named
    cases rest with
    | nil =>
      obtain ⟨front, last, rfl⟩ := (List.eq_nil_or_concat first).resolve_left own.filled
      rw [List.concat_eq_append] at own ⊢
      refine ⟨front, last, by simp, own.solid last (by simp), ?_⟩
      rintro rfl
      exact own.slash_not_mem (by simp)
    | cons second rest =>
      obtain ⟨front, last, spelled, facts⟩ := inductionHypothesis (by simp) others
      refine ⟨first ++ ['/'] ++ front, last, ?_, facts⟩
      rw [List.intercalate_cons_cons, spelled, ← List.append_assoc]

/-- A text with at most one slash has no two in a row, so that collapsing leaves it as it is. -/
theorem collapseSlashes_of_count {text : List Char} (few : text.count '/' ≤ 1) :
    Route.collapseSlashes text = text := by
  apply Route.collapseSlashes_eq_self
  intro occurs
  have twice : ['/', '/'].count '/' ≤ text.count '/' := occurs.sublist.count_le '/'
  exact absurd (twice.trans few) (by decide)

/-- Names joined by slashes hold no two slashes in a row, since there is a name that is not empty
between any two. The induction is on the chain. -/
theorem IsChain.collapseSlashes_intercalate {chain : List (List Char)} (isChain : IsChain chain) :
    Route.collapseSlashes (['/'].intercalate chain) = ['/'].intercalate chain := by
  obtain ⟨filled, named⟩ := isChain
  induction chain with
  | nil => rfl
  | cons first rest inductionHypothesis =>
    obtain ⟨own, others⟩ := List.forall_mem_cons.mp named
    have none : first.count '/' = 0 := List.count_eq_zero.mpr own.slash_not_mem
    cases rest with
    | nil => simpa using collapseSlashes_of_count (by omega)
    | cons second rest =>
      have behind : IsChain (second :: rest) := ⟨by simp, others⟩
      rw [List.intercalate_cons_cons, Route.collapseSlashes_append _ behind.head?_intercalate,
        inductionHypothesis (by simp) others, collapseSlashes_of_count (by simp [none])]

/-- What the path of every chain of an executable starts with. -/
def pathStart (binary : String) : List Char := Route.collapseSlashes ('/' :: binary.toList ++ ['/'])

/-- The path of a chain of commands is the start that all chains of the executable share, and the
names joined by slashes. -/
theorem path_ofChain (binary : String) (file : SourceFile) {chain : List (List Char)}
    (isChain : IsChain chain) :
    (ofChain binary file chain).path.toList = pathStart binary ++ ['/'].intercalate chain := by
  obtain ⟨first, rest, same⟩ := List.exists_cons_of_ne_nil isChain.filled
  obtain ⟨front, last, spelled, solid, open_⟩ := isChain.exists_intercalate_eq
  have letters : ("/" ++ "/".intercalate (binary :: chain.map String.ofList)).toList =
      '/' :: binary.toList ++ ['/'] ++ ['/'].intercalate chain := by
    simp [String.toList_intercalate, same]
  have whole : '/' :: binary.toList ++ ['/'] ++ ['/'].intercalate chain =
      '/' :: (binary.toList ++ '/' :: front ++ [last]) := by
    simp [spelled]
  calc (ofChain binary file chain).path.toList
    _ = Route.normalizeChars ('/' :: binary.toList ++ ['/'] ++ ['/'].intercalate chain) := by
      rw [← letters]
      exact String.toList_ofList
    _ = Route.collapseSlashes ('/' :: binary.toList ++ ['/'] ++ ['/'].intercalate chain) := by
      rw [whole]
      exact Route.normalizeChars_of_solid _ solid open_
    _ = pathStart binary ++ ['/'].intercalate chain := by
      rw [Route.collapseSlashes_append _ isChain.head?_intercalate,
        isChain.collapseSlashes_intercalate, pathStart]

/-- The path of a screen gives the chain back: the start is the same for both, and names without
slashes can be told apart again. -/
theorem chain_eq_of_path_eq {binary : String} {file other : SourceFile}
    {left right : List (List Char)} (first : IsChain left) (second : IsChain right)
    (same : (ofChain binary file left).path = (ofChain binary other right).path) :
    left = right := by
  have letters := congrArg String.toList same
  rw [path_ofChain binary file first, path_ofChain binary other second] at letters
  exact intercalate_injective first.filled
    (fun name member => (first.named name member).slash_not_mem) second.filled
    (fun name member => (second.named name member).slash_not_mem)
    (List.append_cancel_left letters)

/-- Finalization does not change the path of a command, which is in normal form already. -/
theorem settled_ofChain (binary : String) (file : SourceFile) {chain : List (List Char)}
    (isChain : IsChain chain) :
    settled (ofChain binary file chain) = ofChain binary file chain := by
  have normal : Route.normalizeChars (ofChain binary file chain).path.toList =
      (ofChain binary file chain).path.toList := by
    apply Route.normalizeChars_eq_self
    · rw [ofChain, Route.normalize, String.toList_ofList]
      exact Route.normalizeChars_canonical _
    · obtain ⟨front, last, spelled, solid, _⟩ := isChain.exists_intercalate_eq
      rw [path_ofChain binary file isChain, spelled, ← List.append_assoc, List.getLast?_concat]
      simpa using solid
  have path : Route.normalize (ofChain binary file chain).path =
      (ofChain binary file chain).path := by
    rw [Route.normalize, normal, String.ofList_toList]
  rw [settled, path]

/-- Two chains share an identifier exactly when they are spelled alike with colons. -/
theorem id_ofChain_eq_iff {binary : String} {file other : SourceFile}
    {left right : List (List Char)} (first : IsChain left) (second : IsChain right) :
    (ofChain binary file left).id = (ofChain binary other right).id ↔
      [':'].intercalate left = [':'].intercalate right := by
  have letters (file : SourceFile) {chain : List (List Char)} (isChain : IsChain chain) :
      (ofChain binary file chain).id.toList =
        "screen:cli:".toList ++ (binary.toList ++ ':' :: [':'].intercalate chain) := by
    obtain ⟨name, rest, rfl⟩ := List.exists_cons_of_ne_nil isChain.filled
    simp [ofChain, String.toList_intercalate]
  rw [← String.toList_inj, letters file first, letters other second]
  simp

/-! ## The screens of commands -/

variable {binary : String} {files : List SourceFile}

/-- A screen is that of a chain that one of the files registers. -/
theorem exists_chain_of_mem_commands {screen : Screen} (member : screen ∈ commands binary files) :
    ∃ file ∈ files, ∃ chain ∈ registered files, screen = ofChain binary file chain := by
  obtain ⟨file, present, listed⟩ :=
    List.mem_flatMap.mp (gathersBy_addPath.gathers.foldl_subset _ member)
  rw [commandsOfFile_eq] at listed
  obtain ⟨chain, found, rfl⟩ := List.mem_map.mp listed
  exact ⟨file, present, chain, List.mem_flatMap.mpr ⟨file, present, found⟩, rfl⟩

/-- Every registered chain has a screen, made from one of the files that register it. -/
theorem exists_screen_of_mem_registered (binary : String) {chain : List (List Char)}
    (member : chain ∈ registered files) :
    ∃ file ∈ files, ofChain binary file chain ∈ commands binary files := by
  obtain ⟨file, present, found⟩ := List.mem_flatMap.mp member
  have built : ofChain binary file chain ∈ files.flatMap (commandsOfFile binary) := by
    refine List.mem_flatMap.mpr ⟨file, present, ?_⟩
    rw [commandsOfFile_eq]
    exact List.mem_map_of_mem found
  have kept := (gathersBy_addPath.mem_keys [] _ _).mpr (Or.inr (List.mem_map_of_mem built))
  obtain ⟨screen, listed, path⟩ := List.mem_map.mp kept
  obtain ⟨other, there, same, known, rfl⟩ := exists_chain_of_mem_commands listed
  obtain rfl := chain_eq_of_path_eq (isChain_of_mem_registered known)
    (isChain_of_mem_registered member) path
  exact ⟨other, there, listed⟩

/-- No two chains that the files register are spelled alike with colons. -/
def SpelledApart (files : List SourceFile) : Prop :=
  ∀ left ∈ registered files, ∀ right ∈ registered files,
    [':'].intercalate left = [':'].intercalate right → left = right

/-- Names without colons are spelled apart, since the names can be told apart again when colons
join them. -/
theorem spelledApart_of_no_colon
    (plain : ∀ chain ∈ registered files, ∀ name ∈ chain, ':' ∉ name) : SpelledApart files := by
  intro left first right second same
  exact intercalate_injective (isChain_of_mem_registered first).filled (plain left first)
    (isChain_of_mem_registered second).filled (plain right second) same

/-- The identifiers of all screens are distinct exactly when the chains are spelled apart, as the
identifier of a screen is the spelling of its chain. -/
theorem nodup_ids_commands_iff :
    ((commands binary files).map Screen.id).Nodup ↔ SpelledApart files := by
  constructor
  · intro distinct left first right second same
    obtain ⟨file, _, leftListed⟩ := exists_screen_of_mem_registered binary first
    obtain ⟨other, _, rightListed⟩ := exists_screen_of_mem_registered binary second
    have leftChain := isChain_of_mem_registered first
    have rightChain := isChain_of_mem_registered second
    have screens := List.inj_on_of_nodup_map distinct leftListed rightListed
      ((id_ofChain_eq_iff leftChain rightChain).mpr same)
    exact chain_eq_of_path_eq leftChain rightChain (congrArg Screen.path screens)
  · intro apart
    refine nodup_map_of_determines (gathersBy_addPath.nodup _) ?_
    intro left first right second same
    obtain ⟨file, _, chain, known, rfl⟩ := exists_chain_of_mem_commands first
    obtain ⟨other, _, another, listed, rfl⟩ := exists_chain_of_mem_commands second
    have alike := (id_ofChain_eq_iff (isChain_of_mem_registered known)
      (isChain_of_mem_registered listed)).mp same
    rw [apart chain known another listed alike]
    rfl

/-- Finalization changes nothing about the screens of commands if their identifiers are distinct:
their paths are rooted and in normal form. -/
theorem finalize_commands (distinct : ((commands binary files).map Screen.id).Nodup) :
    finalize (commands binary files) = commands binary files := by
  have rooted : ∀ screen ∈ commands binary files, screen.path.toList.head? = some '/' := by
    intro screen member
    obtain ⟨file, _, chain, _, rfl⟩ := exists_chain_of_mem_commands member
    exact Route.normalize_rooted _
  rw [finalize_eq_map rooted distinct]
  refine (List.map_congr_left ?_).trans (List.map_id _)
  intro screen member
  obtain ⟨file, _, chain, known, rfl⟩ := exists_chain_of_mem_commands member
  exact settled_ofChain binary file (isChain_of_mem_registered known)

/-- Every distinct chain of commands has a screen of its own, with a path of its own.
Finalization keeps them all, with distinct identifiers, exactly when no two registered
chains are spelled alike with colons; it does when no name holds a colon.

Proof: the names of a chain hold no slash, so that the path of a screen gives the chain.
The identifiers are those of the spellings with colons. Finalization leaves distinct
identifiers only, so that it loses a screen whenever two agree. -/
theorem commands_survive_iff_spelled_apart (binary : String) (files : List SourceFile) :
    ((commands binary files).map Screen.path).Nodup ∧
    (∀ chain ∈ registered files, ∃! screen, screen ∈ commands binary files ∧
      ∃ file ∈ files, screen = ofChain binary file chain) ∧
    (((commands binary files).map Screen.id).Nodup ↔ SpelledApart files) ∧
    (finalize (commands binary files) = commands binary files ↔ SpelledApart files) ∧
    ((∀ chain ∈ registered files, ∀ name ∈ chain, ':' ∉ name) → SpelledApart files) := by
  have paths : ((commands binary files).map Screen.path).Nodup := gathersBy_addPath.nodup _
  refine ⟨paths, ?_, nodup_ids_commands_iff, ?_, spelledApart_of_no_colon⟩
  · intro chain known
    obtain ⟨file, present, listed⟩ := exists_screen_of_mem_registered binary known
    refine ⟨_, ⟨listed, file, present, rfl⟩, ?_⟩
    rintro screen ⟨member, other, _, rfl⟩
    exact List.inj_on_of_nodup_map paths member listed rfl
  · constructor
    · intro kept
      rw [← nodup_ids_commands_iff, ← kept]
      exact nodup_finalize _
    · intro apart
      exact finalize_commands (nodup_ids_commands_iff.mpr apart)

/-- A source with a command and a subcommand of it. -/
def nestedCommands : SourceFile :=
  ⟨"cli.ts", "const a = program.command('a');\na.command('b <file>');"⟩

/-- No name of the sample holds a colon, and both commands are kept, each with an identifier of
its own. -/
theorem nestedCommands_survive :
    (∀ chain ∈ registered [nestedCommands], ∀ name ∈ chain, ':' ∉ name) ∧
      (commands "cli" [nestedCommands]).map Screen.id =
        ["screen:cli:cli:a", "screen:cli:cli:a:b"] ∧
      finalize (commands "cli" [nestedCommands]) = commands "cli" [nestedCommands] := by
  have plain : ∀ chain ∈ registered [nestedCommands], ∀ name ∈ chain, ':' ∉ name := by
    decide +kernel
  obtain ⟨_, _, _, kept, apart⟩ := commands_survive_iff_spelled_apart "cli" [nestedCommands]
  exact ⟨plain, by decide +kernel, kept.mpr (apart plain)⟩

/-- A subcommand and a command that is spelled like it. -/
def colonCommands : SourceFile :=
  ⟨"cli.ts", "const a = program.command('a');\na.command('b');\nprogram.command('a:b');"⟩

/-- The two have different paths and the same identifier, and finalization keeps the first. -/
theorem colonCommands_lose_one :
    (commands "cli" [colonCommands]).map Screen.path = ["/cli/a", "/cli/a/b", "/cli/a:b"] ∧
      ¬ ((commands "cli" [colonCommands]).map Screen.id).Nodup ∧
      (finalize (commands "cli" [colonCommands])).map Screen.path = ["/cli/a", "/cli/a/b"] := by
  decide +kernel

end ScreenAtlas.Screen
