import Mathlib.Data.String.Basic
import ScreenAtlas.Proofs.NamedEntries
import ScreenAtlas.Repository.Provider

/-!
# The pruned walk lists the files that are not ignored

The walk through a repository decides folder by folder whether to go on, and file by
file what to list. Said for one file at a time, a file is listed exactly when its own
name and path are kept and the same holds of each folder above it, outermost first.

Of the rules that match a path the last one decides. A negated rule at the end thus
takes a file back in, but only its own path is looked at: below a pruned folder the
walk never sees the file.
-/
namespace ScreenAtlas.Repository

/-! ## The last matching rule -/

/-- A rule decides about a path: it matches and no later rule does. -/
structure IgnoreRule.Decides (rule : IgnoreRule) (rules : List IgnoreRule) (path : String)
    (isFolder : Bool) : Prop where
  covers : rule.covers path isFolder = true
  last : ∃ before after, rules = before ++ rule :: after ∧
    ∀ later ∈ after, later.covers path isFolder = false

/-- Rules that do not match leave the verdict as it is, so only what matches has to be looked at.
-/
theorem foldl_verdict {rules : List IgnoreRule} {path : String} {isFolder : Bool}
    (idle : ∀ rule ∈ rules, rule.covers path isFolder = false) (ignored : Bool) :
    rules.foldl (fun ignored rule =>
      if rule.covers path isFolder then !rule.negated else ignored) ignored = ignored := by
  induction rules with
  | nil => rfl
  | cons rule rest inductionHypothesis =>
    obtain ⟨here, behind⟩ := List.forall_mem_cons.mp idle
    rw [List.foldl_cons, here]
    exact inductionHypothesis behind

/-- The rule that decides gives the verdict: it overrides what came before it, and nothing behind
it matches. -/
theorem IgnoreRule.Decides.isIgnored_eq {rule : IgnoreRule} {rules : List IgnoreRule}
    {path : String} {isFolder : Bool} (decides : rule.Decides rules path isFolder) :
    isIgnored rules path isFolder = !rule.negated := by
  obtain ⟨covers, before, after, rfl, idle⟩ := decides
  rw [isIgnored, List.foldl_append, List.foldl_cons, covers]
  exact foldl_verdict idle _

/-! ## The walk -/

/-- The walk does not enter a folder: its name is excluded, or it is ignored. -/
def IsPruned (rules : List IgnoreRule) (above : List String) (folder : String) : Prop :=
  folder ∈ excludedFolders ∨ isIgnored rules (pathOf (above ++ [folder])) true = true

/-- The walk enters folders that lie one in the other, the outermost first. -/
def Enters (rules : List IgnoreRule) (above folders : List String) : Prop :=
  ∀ outer folder, outer ++ [folder] <+: folders → ¬ IsPruned rules (above ++ outer) folder

/-- At the top there is no folder to enter, so the walk gets there in any case. -/
theorem enters_nil {rules : List IgnoreRule} {above : List String} : Enters rules above [] := by
  intro outer folder starts
  simp at starts

/-- The walk enters folders that lie one in the other exactly when it enters the outermost one and
then the others in it. -/
theorem enters_cons {rules : List IgnoreRule} {above folders : List String} {folder : String} :
    Enters rules above (folder :: folders) ↔
      ¬ IsPruned rules above folder ∧ Enters rules (above ++ [folder]) folders := by
  constructor
  · intro enters
    constructor
    · simpa using enters [] folder ⟨folders, rfl⟩
    · intro outer inner starts
      have inside := enters (folder :: outer) inner (List.cons_prefix_cons.mpr ⟨rfl, starts⟩)
      rwa [List.append_cons] at inside
  · rintro ⟨first, others⟩ outer inner starts
    cases outer with
    | nil =>
      obtain ⟨rfl, _⟩ := List.cons_prefix_cons.mp starts
      simpa using first
    | cons name outer =>
      obtain ⟨rfl, inside⟩ := List.cons_prefix_cons.mp starts
      rw [List.append_cons]
      exact others outer inner inside

/-- The entries of a folder are walked one after the other, each with the names of the folders
above it. -/
theorem filesWithin_eq_flatMap (rules : List IgnoreRule) (above : List String)
    (entries : List (String × FileTree)) :
    filesWithin rules above entries =
      entries.flatMap fun entry => filesOf rules above entry.1 entry.2 := by
  induction entries with
  | nil => rfl
  | cons entry rest inductionHypothesis =>
    rw [filesWithin, inductionHypothesis, List.flatMap_cons]

/-- A file gives its own path exactly when its name is not excluded and its path is not ignored.
-/
theorem mem_filesOf_file {rules : List IgnoreRule} {above : List String} {name path : String}
    {bytes : List UInt8} :
    path ∈ filesOf rules above name (.file bytes) ↔
      path = pathOf (above ++ [name]) ∧ name ∉ excludedFiles ∧
        isIgnored rules path false = false := by
  rw [filesOf]
  split
  · next left =>
    simp only [Bool.or_eq_true, List.contains_iff_mem] at left
    simp only [List.not_mem_nil, false_iff]
    rintro ⟨rfl, plain, kept⟩
    simp [plain, kept] at left
  · next left =>
    simp only [Bool.or_eq_true, List.contains_iff_mem, not_or, Bool.not_eq_true] at left
    simp only [List.mem_singleton]
    exact ⟨fun same => ⟨same, left.1, same ▸ left.2⟩, And.left⟩

/-- A folder gives exactly the files in it if it is entered, and nothing otherwise. -/
theorem mem_filesOf_folder {rules : List IgnoreRule} {above : List String} {name path : String}
    {entries : List (String × FileTree)} :
    path ∈ filesOf rules above name (.folder entries) ↔
      ¬ IsPruned rules above name ∧ path ∈ filesWithin rules (above ++ [name]) entries := by
  have condition : (excludedFolders.contains name ||
      isIgnored rules (pathOf (above ++ [name])) true) = true ↔ IsPruned rules above name := by
    simp [IsPruned]
  rw [filesOf]
  split
  · next pruned => simp [condition.mp pruned]
  · next entered => simp [condition.not.mp entered]

/-- The walk through a folder lists exactly the files of which the name and the path
are kept and to which it gets by folders that it enters.

Proof: by induction on the tree. What is looked up in a folder is an entry of the
folder, or lies in an entry that is a folder itself. -/
theorem mem_filesWithin {rules : List IgnoreRule} {entries : List (String × FileTree)}
    (wellNamed : (FileTree.folder entries).WellNamed) {above : List String} {path : String} :
    path ∈ filesWithin rules above entries ↔ ∃ folders name bytes,
      (FileTree.folder entries).lookup (folders ++ [name]) = .ok (.file bytes) ∧
      path = pathOf (above ++ (folders ++ [name])) ∧ name ∉ excludedFiles ∧
      isIgnored rules path false = false ∧ Enters rules above folders := by
  generalize same : FileTree.folder entries = tree at wellNamed
  induction wellNamed generalizing entries above with
  | file bytes => cases same
  | @folder entries distinct named inner inductionHypothesis =>
    obtain rfl := FileTree.folder.inj same
    have whole := FileTree.WellNamed.folder distinct named inner
    rw [filesWithin_eq_flatMap, List.mem_flatMap]
    constructor
    · rintro ⟨⟨name, entry⟩, member, found⟩
      cases entry with
      | file bytes =>
        obtain ⟨spelled, plain, kept⟩ := mem_filesOf_file.mp found
        exact ⟨[], name, bytes, whole.lookup_cons_eq_ok_iff.mpr ⟨_, member, rfl⟩, spelled, plain,
          kept, enters_nil⟩
      | folder others =>
        obtain ⟨entered, within⟩ := mem_filesOf_folder.mp found
        obtain ⟨folders, last, bytes, leads, spelled, plain, kept, enters⟩ :=
          (inductionHypothesis _ member rfl).mp within
        exact ⟨name :: folders, last, bytes, whole.lookup_cons_eq_ok_iff.mpr ⟨_, member, leads⟩,
          by simpa using spelled, plain, kept, enters_cons.mpr ⟨entered, enters⟩⟩
    · rintro ⟨folders, name, bytes, leads, spelled, plain, kept, enters⟩
      cases folders with
      | nil =>
        obtain ⟨entry, member, leads⟩ := whole.lookup_cons_eq_ok_iff.mp leads
        obtain rfl := Except.ok.inj leads
        exact ⟨_, member, mem_filesOf_file.mpr ⟨spelled, plain, kept⟩⟩
      | cons first folders =>
        obtain ⟨entry, member, leads⟩ := whole.lookup_cons_eq_ok_iff.mp leads
        obtain ⟨entered, enters⟩ := enters_cons.mp enters
        cases entry with
        | file held => cases folders <;> cases leads
        | folder others =>
          refine ⟨_, member, mem_filesOf_folder.mpr ⟨entered, ?_⟩⟩
          exact (inductionHypothesis _ member rfl).mpr
            ⟨folders, name, bytes, leads, by simpa using spelled, plain, kept, enters⟩

/-- What lies below an entry of a folder has a path through the name of the entry, followed by
names that are in the tree. -/
theorem exists_of_mem_filesOf {rules : List IgnoreRule} {above : List String} {name path : String}
    {entry : FileTree} (wellNamed : entry.WellNamed)
    (member : path ∈ filesOf rules above name entry) :
    ∃ below, (∀ step ∈ below, Location.IsName step) ∧ path = pathOf (above ++ name :: below) := by
  cases entry with
  | file bytes => exact ⟨[], by simp, (mem_filesOf_file.mp member).1⟩
  | folder entries =>
    obtain ⟨_, within⟩ := mem_filesOf_folder.mp member
    obtain ⟨folders, last, bytes, leads, spelled, _⟩ := (mem_filesWithin wellNamed).mp within
    exact ⟨folders ++ [last], (wellNamed.of_lookup leads).2, by simpa using spelled⟩

/-- No path is listed twice: two entries of a folder differ in their names, and the
paths below them differ there. -/
theorem nodup_filesWithin {rules : List IgnoreRule} {entries : List (String × FileTree)}
    (wellNamed : (FileTree.folder entries).WellNamed) {above : List String}
    (names : ∀ name ∈ above, Location.IsName name) :
    (filesWithin rules above entries).Nodup := by
  generalize same : FileTree.folder entries = tree at wellNamed
  induction wellNamed generalizing entries above with
  | file bytes => cases same
  | @folder entries distinct named inner inductionHypothesis =>
    obtain rfl := FileTree.folder.inj same
    rw [filesWithin_eq_flatMap, List.nodup_flatMap]
    constructor
    · rintro ⟨name, entry⟩ member
      cases entry with
      | file bytes =>
        rw [filesOf]
        split <;> simp
      | folder others =>
        rw [filesOf]
        split
        · exact List.nodup_nil
        · apply inductionHypothesis _ member _ rfl
          intro step within
          rcases List.mem_append.mp within with earlier | last
          · exact names step earlier
          · rw [List.mem_singleton.mp last]
            exact named _ member
    · refine (List.pairwise_map.mp distinct).imp_of_mem ?_
      intro left right leftMember rightMember apart path onLeft onRight
      obtain ⟨below, first, spelled⟩ := exists_of_mem_filesOf (inner _ leftMember) onLeft
      obtain ⟨other, second, again⟩ := exists_of_mem_filesOf (inner _ rightMember) onRight
      have through {name : String} {steps : List String} (here : Location.IsName name)
          (behind : ∀ step ∈ steps, Location.IsName step) :
          ∀ step ∈ above ++ name :: steps, Location.IsName step :=
        List.forall_mem_append.mpr ⟨names, List.forall_mem_cons.mpr ⟨here, behind⟩⟩
      have alike := pathOf_injective (by simp) (through (named _ leftMember) first) (by simp)
        (through (named _ rightMember) second) (spelled.symm.trans again)
      exact apart (List.cons.inj (List.append_cancel_left alike)).1

/-! ## The listing -/

/-- A file in some folders is one to list: its name and its path are kept, and the walk
enters every folder above it. -/
structure IsListed (rules : List IgnoreRule) (folders : List String) (name : String) : Prop where
  plain : name ∉ excludedFiles
  kept : isIgnored rules (pathOf (folders ++ [name])) false = false
  entered : Enters rules [] folders

/-- Some paths are the listing of a folder by rules: they increase, each is the path of a
file, and every file to list is among them. A file that a negated rule takes back in is
among them when it lies in no pruned folder, and otherwise not. -/
structure IsListing (rules : List IgnoreRule) (entries : List (String × FileTree))
    (files : List String) : Prop where
  increasing : files.Pairwise (· < ·)
  present : ∀ path ∈ files, ∃ folders name bytes, path = pathOf (folders ++ [name]) ∧
    (FileTree.folder entries).lookup (folders ++ [name]) = .ok (.file bytes)
  exact : ∀ folders name bytes,
    (FileTree.folder entries).lookup (folders ++ [name]) = .ok (.file bytes) →
      (pathOf (folders ++ [name]) ∈ files ↔ IsListed rules folders name)
  restored : ∀ folders name bytes (rule : IgnoreRule),
    (FileTree.folder entries).lookup (folders ++ [name]) = .ok (.file bytes) →
    name ∉ excludedFiles → rule.Decides rules (pathOf (folders ++ [name])) false →
    rule.negated = true → (pathOf (folders ++ [name]) ∈ files ↔ Enters rules [] folders)

/-- Sorting puts the listed paths into strictly increasing order, because they are distinct. -/
theorem increasing_listFiles {rules : List IgnoreRule} {entries : List (String × FileTree)}
    (wellNamed : (FileTree.folder entries).WellNamed) :
    (listFiles rules (.folder entries)).Pairwise (· < ·) := by
  rw [listFiles]
  have sorted : ((filesWithin rules [] entries).mergeSort fun a b => decide (a ≤ b)).Pairwise
      fun a b => decide (a ≤ b) = true :=
    List.pairwise_mergeSort (by simpa using fun _ _ _ => le_trans) (by simpa using le_total) _
  have once : ((filesWithin rules [] entries).mergeSort fun a b => decide (a ≤ b)).Nodup :=
    List.nodup_mergeSort.mpr (nodup_filesWithin wellNamed (List.forall_mem_nil _))
  exact (sorted.and once).imp fun ⟨before, apart⟩ => lt_of_le_of_ne (by simpa using before) apart

/-- For every tree with proper names and all rules the walk gives the listing, in all four
respects. -/
theorem isListing_listFiles (rules : List IgnoreRule) {entries : List (String × FileTree)}
    (wellNamed : (FileTree.folder entries).WellNamed) :
    IsListing rules entries (listFiles rules (.folder entries)) := by
  have walked (path : String) : path ∈ listFiles rules (.folder entries) ↔
      path ∈ filesWithin rules [] entries := List.mem_mergeSort
  have exact : ∀ folders name bytes,
      (FileTree.folder entries).lookup (folders ++ [name]) = .ok (.file bytes) →
        (pathOf (folders ++ [name]) ∈ listFiles rules (.folder entries) ↔
          IsListed rules folders name) := by
    intro folders name bytes leads
    rw [walked, mem_filesWithin wellNamed]
    constructor
    · rintro ⟨others, last, _, found, spelled, plain, kept, enters⟩
      have alike := pathOf_injective (by simp) (wellNamed.of_lookup leads).2 (by simp)
        (wellNamed.of_lookup found).2 spelled
      obtain ⟨rfl, rfl⟩ : folders = others ∧ name = last := by simpa using alike
      exact ⟨plain, kept, enters⟩
    · rintro ⟨plain, kept, enters⟩
      exact ⟨folders, name, bytes, leads, rfl, plain, kept, enters⟩
  refine ⟨increasing_listFiles wellNamed, ?_, exact, ?_⟩
  · intro path member
    obtain ⟨folders, name, bytes, leads, spelled, _⟩ :=
      (mem_filesWithin wellNamed).mp ((walked path).mp member)
    exact ⟨folders, name, bytes, spelled, leads⟩
  · intro folders name bytes rule leads plain decides negated
    rw [exact folders name bytes leads]
    constructor
    · exact IsListed.entered
    · intro enters
      exact ⟨plain, by rw [decides.isIgnored_eq, negated]; rfl, enters⟩

/-- The listing of a checkout is exact: for every disk, every ignore file and all excluded
patterns the files of the repository that are listed are those of which neither the file
nor any folder above it is left out, in increasing order. An ignore file that cannot be
read is reported in place of a listing. -/
theorem checkout_lists_exactly_unpruned (checkout : Checkout)
    (entries : List (String × FileTree)) (wellNamed : checkout.tree.WellNamed)
    (rooted : checkout.tree.lookup checkout.root = .ok (.folder entries)) :
    (∀ fault, ignoreRules checkout.tree checkout.root = .error fault →
      checkout.listing = .error fault) ∧
    ∀ own, ignoreRules checkout.tree checkout.root = .ok own →
      ∃ files, checkout.listing = .ok files ∧
        IsListing (own ++ excludingRules checkout.exclude) entries files := by
  constructor
  · intro fault unreadable
    simp only [Checkout.listing, rooted, unreadable]
    rfl
  · intro own read
    refine ⟨_, ?_, isListing_listFiles _ (wellNamed.of_lookup rooted).1⟩
    simp only [Checkout.listing, rooted, read]
    rfl

/-- A repository with rules that leave out a folder and all logs, and take back in one
file of each. -/
def sampleEntries : List (String × FileTree) :=
  [(ignoreFile, .file (Text.encode "gen/\n*.log\n!gen/keep.ts\n!keep.log\n".toList)),
    ("gen", .folder [("keep.ts", .file [])]), ("keep.log", .file []), ("trace.log", .file [])]

/-- The checkout of the repository, with a pattern that excludes nothing in it. -/
def sampleCheckout : Checkout :=
  { tree := .folder [("work", .folder sampleEntries)], repo := "/work", root := ["work"],
    exclude := ["docs/"] }

/-- The rules of the repository, as they are read from its ignore file. -/
def sampleRules : List IgnoreRule :=
  [⟨"gen", true, false, false⟩, ⟨"*.log", false, false, false⟩,
    ⟨"gen/keep.ts", false, false, true⟩, ⟨"keep.log", false, false, true⟩]

/-- The log that is taken back in is listed. The file in the folder is taken back in as
well, but the folder is pruned. -/
theorem sampleCheckout_lists_exactly_unpruned :
    sampleCheckout.tree.WellNamed ∧
      sampleCheckout.tree.lookup sampleCheckout.root = .ok (.folder sampleEntries) ∧
      ignoreRules sampleCheckout.tree sampleCheckout.root = .ok sampleRules ∧
      ∃ files, sampleCheckout.listing = .ok files ∧ "keep.log" ∈ files ∧
        "gen/keep.ts" ∉ files ∧
        isIgnored (sampleRules ++ excludingRules sampleCheckout.exclude) "gen/keep.ts" false =
          false := by
  have wellNamed : sampleCheckout.tree.WellNamed := by
    refine .folder (by decide) (by decide +kernel) ?_
    intro entry member
    obtain rfl := List.mem_singleton.mp member
    refine .folder (by decide +kernel) (by decide +kernel) ?_
    simp only [sampleEntries, List.forall_mem_cons]
    refine ⟨.file _, .folder (by decide) (by decide +kernel) ?_, .file _, .file _, by simp⟩
    intro entry member
    obtain rfl := List.mem_singleton.mp member
    exact .file _
  have rooted : sampleCheckout.tree.lookup sampleCheckout.root = .ok (.folder sampleEntries) := rfl
  have read : ignoreRules sampleCheckout.tree sampleCheckout.root = .ok sampleRules := by
    rfl
  obtain ⟨files, listed, listing⟩ :=
    (checkout_lists_exactly_unpruned sampleCheckout sampleEntries wellNamed rooted).2 _ read
  refine ⟨wellNamed, rooted, read, files, listed, ?_, ?_, by decide +kernel⟩
  · exact (listing.exact [] "keep.log" [] rfl).mpr ⟨by decide, by decide +kernel, enters_nil⟩
  · intro member
    have found := (listing.exact ["gen"] "keep.ts" [] rfl).mp member
    have pruned : IsPruned (sampleRules ++ excludingRules sampleCheckout.exclude) [] "gen" :=
      Or.inr (by decide +kernel)
    exact found.entered [] "gen" (List.prefix_refl _) pruned

end ScreenAtlas.Repository
