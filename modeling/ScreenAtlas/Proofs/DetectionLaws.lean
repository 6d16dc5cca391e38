import ScreenAtlas.Proofs.NearestDouble
import ScreenAtlas.Proofs.ReportedRouters

/-!
# Detection knows no order of files and only grows

Frameworks are gathered signal by signal: a label is listed with the first signal that
carries it, and the confidence is the largest one given so far. The signals themselves come
in a fixed order that has nothing to do with the order of the files: of the files it only
matters whether some file has a place or a text of some kind. The manifest is looked for
among the files, so with at most one manifest its place makes no difference either.

More files give more signals. Therefore one more file never takes a label away and never
lowers the confidence, as long as it does not put an end to the detection: a manifest with a
whole number of too many figures does. A manifest that is nested too deeply for the stack of a
reader would do so, too. Manifests are read at any depth here, so that limit is left out.
-/
namespace ScreenAtlas

namespace Double

/-- A number is at most another one, where both are finite and not negative. -/
def AtMost (left right : Double) : Prop :=
  ∃ low high : Fin finiteMagnitudes, left = .finite false low ∧ right = .finite false high ∧
    magnitude low ≤ magnitude high

/-- The number is finite and not negative, as confidences are. -/
def isPlain : Double → Bool
  | .finite false _ => true
  | _ => false

/-- A number that is finite and not negative has a place among the magnitudes, by which it can be
compared. -/
theorem exists_place {number : Double} (plain : number.isPlain = true) :
    ∃ place, number = .finite false place := by
  unfold isPlain at plain
  split at plain
  · exact ⟨_, rfl⟩
  · cases plain

/-- Numbers that are finite and not negative are in the order of their places, because magnitudes
grow with the place. -/
theorem atMost_iff_le (low high : Fin finiteMagnitudes) :
    AtMost (.finite false low) (.finite false high) ↔ low ≤ high := by
  rw [Fin.le_def, ← magnitude_strictMono.le_iff_le]
  constructor
  · rintro ⟨_, _, first, second, ordered⟩
    cases first
    cases second
    exact ordered
  · intro ordered
    exact ⟨low, high, rfl, rfl, ordered⟩

/-- Zero is at most any number that is finite and not negative, as it has the first place. -/
theorem zero_atMost {number : Double} (plain : number.isPlain = true) : zero.AtMost number := by
  obtain ⟨place, rfl⟩ := exists_place plain
  exact (atMost_iff_le ⟨0, by decide⟩ place).mpr (Nat.zero_le _)

/-- What is at most one number is at most any larger one; the places pass the order on. -/
theorem AtMost.trans {first second third : Double} (left : first.AtMost second)
    (right : second.AtMost third) : first.AtMost third := by
  obtain ⟨low, middle, rfl, rfl, below⟩ := left
  obtain ⟨_, high, same, rfl, above⟩ := right
  cases same
  exact ⟨low, high, rfl, rfl, below.trans above⟩

/-- The larger of two numbers is one of them, and both are at most that. -/
theorem larger_meets {left right : Double} (first : left.isPlain = true)
    (second : right.isPlain = true) :
    (left.larger right = left ∨ left.larger right = right) ∧
      left.AtMost (left.larger right) ∧ right.AtMost (left.larger right) := by
  obtain ⟨low, rfl⟩ := exists_place first
  obtain ⟨high, rfl⟩ := exists_place second
  simp only [larger]
  split
  · next less =>
    refine ⟨Or.inr rfl, ?_, ?_⟩ <;> rw [atMost_iff_le, Fin.le_def]
    omega
  · next reaches =>
    refine ⟨Or.inl rfl, ?_, ?_⟩ <;> rw [atMost_iff_le, Fin.le_def]
    omega

end Double

namespace Framework

/-! ## Confidence -/

/-- What the confidence is after some signals: zero or given by one of them, and none of
them has given more. -/
structure Peaks (signals : List Signal) (confidence : Double) : Prop where
  plain : confidence.isPlain = true
  given : confidence = .zero ∨ ∃ signal ∈ signals, signal.confidence = some confidence
  bound : ∀ signal ∈ signals, ∀ other ∈ signal.confidence, other.AtMost confidence

/-- The signal gives a finite confidence that is not negative, or none. -/
def Signal.isPlain (signal : Signal) : Bool := signal.confidence.all Double.isPlain

/-- One more signal keeps the description of the confidence: it becomes the larger of what it was
and what the signal gives. -/
theorem Peaks.step {seen : List Signal} {framework : Framework}
    (peaks : Peaks seen framework.confidence) {signal : Signal} (plain : signal.isPlain = true) :
    Peaks (seen ++ [signal]) (addSignal framework signal).confidence := by
  have earlier : ∀ {confidence : Double},
      (∃ other ∈ seen, other.confidence = some confidence) →
        ∃ other ∈ seen ++ [signal], other.confidence = some confidence :=
    fun ⟨other, member, given⟩ => ⟨other, List.mem_append_left _ member, given⟩
  cases told : signal.confidence with
  | none =>
    have kept : (addSignal framework signal).confidence = framework.confidence := by
      simp [addSignal, told]
    rw [kept]
    refine ⟨peaks.plain, peaks.given.imp_right earlier, ?_⟩
    intro other member number holds
    rcases List.mem_append.mp member with before | last
    · exact peaks.bound other before number holds
    · rw [List.mem_singleton.mp last, told] at holds
      cases holds
  | some number =>
    have raised : (addSignal framework signal).confidence =
        framework.confidence.larger number := by
      simp [addSignal, told]
    have fresh : number.isPlain = true := by simpa [Signal.isPlain, told] using plain
    obtain ⟨chosen, above, reached⟩ := Double.larger_meets peaks.plain fresh
    rw [raised]
    refine ⟨?_, ?_, ?_⟩
    · rcases chosen with old | new
      · rw [old]
        exact peaks.plain
      · rw [new]
        exact fresh
    · rcases chosen with old | new
      · rw [old]
        exact peaks.given.imp_right earlier
      · rw [new]
        exact Or.inr ⟨signal, by simp, told⟩
    · intro other member confidence holds
      rcases List.mem_append.mp member with before | last
      · exact (peaks.bound other before confidence holds).trans above
      · rw [List.mem_singleton.mp last, told, Option.mem_some] at holds
        rwa [← holds]

/-- After any number of signals, all of them with plain confidences, the description holds of the
confidence. The induction is from the end, one signal at a time. -/
theorem peaks_foldl {signals : List Signal} (plain : ∀ signal ∈ signals, signal.isPlain = true) :
    Peaks signals (signals.foldl addSignal {}).confidence := by
  induction signals using List.reverseRecOn with
  | nil => exact ⟨rfl, Or.inl rfl, by simp⟩
  | append_singleton signals signal inductionHypothesis =>
    rw [List.foldl_append]
    obtain ⟨earlier, last⟩ := List.forall_mem_append.mp plain
    exact (inductionHypothesis earlier).step (last signal (by simp))

/-- More signals give no lower confidence: what the fewer signals reached was given by one of
them, and the others bound it. -/
theorem Peaks.atMost {signals more : List Signal} {low high : Double} (peaks : Peaks signals low)
    (further : Peaks more high) (included : signals ⊆ more) : low.AtMost high := by
  rcases peaks.given with rfl | ⟨signal, member, given⟩
  · exact Double.zero_atMost further.plain
  · exact further.bound signal (included member) low given

/-! ## Signals -/

/-- The signals of files are a part of these. -/
def knownSignals : List Signal :=
  [⟨"next.js", none⟩, ⟨appRouter, some (hundredths 95)⟩, ⟨pagesRouter, some (hundredths 95)⟩,
    ⟨nuxt, some (hundredths 95)⟩, ⟨router, some (hundredths 85)⟩,
    ⟨"cli-commander", some (hundredths 80)⟩]

/-- All signals of manifests and files give confidences that are finite and not negative, since
they are among the known ones. -/
theorem signals_plain (dependencies : Manifest.Versions) (files : List SourceFile) :
    ∀ signal ∈ manifestSignals dependencies ++ fileSignals files, signal.isPlain = true := by
  have depended : (dependencySignals.all fun entry => entry.2.isPlain) = true := by decide +kernel
  have placed : (knownSignals.all Signal.isPlain) = true := by decide +kernel
  have known : fileSignals files ⊆ knownSignals := by
    simp only [fileSignals, List.append_subset]
    refine ⟨⟨⟨⟨?_, ?_⟩, ?_⟩, ?_⟩, ?_⟩ <;> split <;> simp [knownSignals]
  intro signal member
  rcases List.mem_append.mp member with listed | found
  · obtain ⟨entry, present, made⟩ := List.mem_filterMap.mp listed
    obtain ⟨_, same⟩ := Option.ite_none_right_eq_some.mp made
    rw [← Option.some.inj same]
    exact List.all_eq_true.mp depended entry present
  · exact List.all_eq_true.mp placed signal (known found)

/-- Signals under a condition stay when the condition stays, so each rule of the detection can be
treated by itself. -/
theorem if_subset_if {condition later : Bool} (stays : condition = true → later = true)
    (signals : List Signal) :
    (if condition then signals else []) ⊆ if later then signals else [] := by
  cases condition with
  | false => exact List.nil_subset _
  | true =>
    rw [stays rfl]
    exact List.Subset.refl _

/-- More files give more signals: every rule asks whether some file has a property, and some file
still has it. -/
theorem fileSignals_subset {files more : List SourceFile} (included : files ⊆ more) :
    fileSignals files ⊆ fileSignals more := by
  have stays {property : SourceFile → Bool} (some : files.any property = true) :
      more.any property = true := by
    obtain ⟨file, member, holds⟩ := List.any_eq_true.mp some
    exact List.any_eq_true.mpr ⟨file, included member, holds⟩
  have widen {left right front behind : List Signal} (first : left ⊆ front)
      (second : right ⊆ behind) : left ++ right ⊆ front ++ behind :=
    List.append_subset.mpr ⟨List.subset_append_of_subset_left _ first,
      List.subset_append_of_subset_right _ second⟩
  unfold fileSignals
  exact widen (widen (widen (widen (if_subset_if stays _) (if_subset_if stays _))
    (if_subset_if stays _)) (if_subset_if stays _)) (if_subset_if stays _)

/-- The order of the files makes no difference to their signals, as the rules only ask whether
some file has a property. -/
theorem fileSignals_perm {files order : List SourceFile} (shuffled : order.Perm files) :
    fileSignals order = fileSignals files := by
  have same (property : SourceFile → Bool) : order.any property = files.any property :=
    shuffled.any_eq
  unfold fileSignals anyHolds
  rw [same, same, same, same, same]

/-! ## Labels -/

/-- The labels of signals are listed once, each with the first signal that carries it. -/
theorem nodup_ofSignals (dependencies : Manifest.Versions) (files : List SourceFile) :
    (ofSignals dependencies files).detected.Nodup := by
  unfold ofSignals
  refine List.foldlRecOn (motive := fun framework : Framework => framework.detected.Nodup) _
    addSignal List.nodup_nil ?_
  intro framework distinct signal _
  unfold addSignal
  dsimp only
  split
  · exact distinct
  · next fresh =>
    rw [List.contains_iff_mem] at fresh
    exact distinct.append (List.nodup_singleton _) (by simpa using fresh)

/-- All labels of the first frameworks are among those of the second, whose confidence is no
lower. -/
structure Extends (framework larger : Framework) : Prop where
  labels : framework.detected ⊆ larger.detected
  confidence : framework.confidence.AtMost larger.confidence

/-- More signals, from the manifest or from files, extend the frameworks: labels are only added,
and the confidence does not fall. -/
theorem extends_ofSignals {dependencies others : Manifest.Versions} {files more : List SourceFile}
    (depended : manifestSignals dependencies ⊆ manifestSignals others) (included : files ⊆ more) :
    (ofSignals dependencies files).Extends (ofSignals others more) := by
  have signals : manifestSignals dependencies ++ fileSignals files ⊆
      manifestSignals others ++ fileSignals more :=
    List.append_subset.mpr ⟨List.subset_append_of_subset_left _ depended,
      List.subset_append_of_subset_right _ (fileSignals_subset included)⟩
  constructor
  · intro label listed
    rw [ofSignals, mem_detected_foldl] at listed ⊢
    refine listed.imp_right ?_
    rintro ⟨signal, member, carries⟩
    exact ⟨signal, signals member, carries⟩
  · exact (peaks_foldl (signals_plain dependencies files)).atMost
      (peaks_foldl (signals_plain others more)) signals

end Framework

/-! ## The manifest among the files -/

namespace Manifest

/-- At most one of the files is the manifest. -/
def Single (files : List SourceFile) : Prop :=
  (files.filter fun file => file.path == path).length ≤ 1

/-- A single manifest is found in any order of the files, since there is no other that could come
before it. -/
theorem find?_perm {files order : List SourceFile} (single : Single files)
    (shuffled : order.Perm files) : find? order = find? files := by
  have manifests := shuffled.filter fun file => file.path == path
  rw [find?, find?, ← List.head?_filter, ← List.head?_filter]
  unfold Single at single
  generalize (files.filter fun file => file.path == path) = kept at single manifests ⊢
  rcases kept with _ | ⟨manifest, _ | ⟨other, rest⟩⟩
  · rw [manifests.eq_nil]
  · rw [List.perm_singleton.mp manifests]
  · simp at single

/-- The file is a manifest that holds a whole number with too many figures. -/
def Refused (file : SourceFile) : Prop :=
  file.path = path ∧ Json.read file.content = .error .tooManyDigits

variable {front back : List SourceFile} {file : SourceFile}

/-- A file that is not the manifest is passed over when the manifest is looked for, wherever it
stands. -/
theorem find?_insert_other (other : file.path ≠ path) :
    find? (front ++ file :: back) = find? (front ++ back) := by
  simp [find?, List.find?_append, other]

/-- A manifest that is added where there was no other is the one that is found, at any place among
the files. -/
theorem find?_insert_manifest (manifest : file.path = path)
    (alone : find? (front ++ back) = none) : find? (front ++ file :: back) = some file := by
  rw [find?, List.find?_append, Option.or_eq_none_iff] at alone
  simp [find?, List.find?_append, alone.1, manifest]

/-- Files without a manifest are treated as if they had an empty one, which has no dependencies.
-/
theorem consult_of_none {files : List SourceFile} (absent : find? files = none) :
    (consult files).Answers (.ok []) := by
  rw [consult, absent]
  exact Journal.answers_pure []

/-- One more file makes the manifest unreadable only if it is refused itself, as long as it is not
a second manifest. -/
theorem unreadable_insert_iff (readable : ¬ Unreadable (front ++ back))
    (fits : file.path = path → find? (front ++ back) = none) :
    Unreadable (front ++ file :: back) ↔ Refused file := by
  unfold Unreadable at readable ⊢
  by_cases manifest : file.path = path
  · rw [find?_insert_manifest manifest (fits manifest)]
    simp [Refused, manifest]
  · rw [find?_insert_other manifest]
    constructor
    · intro unreadable
      exact absurd unreadable readable
    · intro refused
      exact absurd refused.1 manifest

end Manifest

namespace Framework

/-- The frameworks that are detected are those of the signals that the consulted manifest and the
files give. -/
theorem detect_of_consult {files : List SourceFile} {members : Members}
    (consulted : (Manifest.consult files).Answers (.ok members)) :
    (detect files).Answers (.ok (ofSignals (Manifest.dependencies members) files)) :=
  consulted.bind ((Journal.answers_leave _).bind (Journal.answers_pure _))

/-- Files in another order, with at most one manifest among them, are the same to the
detection: what it finds, what it notes and whether it ends with a fault. -/
theorem detect_perm {files order : List SourceFile} (single : Manifest.Single files)
    (shuffled : order.Perm files) : detect order = detect files := by
  simp only [detect, Manifest.consult, Manifest.find?_perm single shuffled, ofSignals,
    fileSignals_perm shuffled]

/-- One more file extends the frameworks, whatever it is, unless it is refused. A file that is not
the manifest leaves the dependencies, and a first manifest can only add some. -/
theorem exists_extends_insert {front back : List SourceFile} {file : SourceFile}
    {members : Members} (consulted : (Manifest.consult (front ++ back)).Answers (.ok members))
    (fits : file.path = Manifest.path → Manifest.find? (front ++ back) = none)
    (readable : ¬ Manifest.Unreadable (front ++ file :: back)) :
    ∃ larger, (detect (front ++ file :: back)).Answers (.ok larger) ∧
      (ofSignals (Manifest.dependencies members) (front ++ back)).Extends larger := by
  have included : front ++ back ⊆ front ++ file :: back :=
    (List.Sublist.append_left (List.sublist_cons_self file back) front).subset
  by_cases manifest : file.path = Manifest.path
  · obtain ⟨others, read⟩ := Manifest.consult_answers readable
    -- Without a manifest there have been no dependencies before.
    obtain rfl : members = [] :=
      Except.ok.inj (consulted.unique (Manifest.consult_of_none (fits manifest)))
    have none : manifestSignals (Manifest.dependencies []) = [] := by decide +kernel
    refine ⟨_, detect_of_consult read, extends_ofSignals ?_ included⟩
    rw [none]
    exact List.nil_subset _
  · have same : Manifest.consult (front ++ file :: back) = Manifest.consult (front ++ back) := by
      simp only [Manifest.consult, Manifest.find?_insert_other manifest]
    exact ⟨_, detect_of_consult (same ▸ consulted),
      extends_ofSignals (List.Subset.refl _) included⟩

/-- Detection knows no order of files and only grows.

* With at most one manifest the files can be given in any order: what is found, what is
  noted and whether there is a fault is the same.
* A manifest that is refused for a number ends the detection. In all other cases frameworks
  are found; their labels are distinct, and the first of them is the primary one.
* One more file at any place, or the manifest where there was none, keeps every label and
  does not lower the confidence, unless it is a manifest that is refused itself. -/
theorem detection_is_orderless_and_monotone (files : List SourceFile) :
    (∀ order, Manifest.Single files → order.Perm files → detect order = detect files) ∧
    (Manifest.Unreadable files → (detect files).Answers (.error .malformedNumber)) ∧
    (¬ Manifest.Unreadable files →
      ∃ framework, (detect files).Answers (.ok framework) ∧ framework.detected.Nodup ∧
        framework.primary = framework.detected.head? ∧
        ∀ front back file, files = front ++ back →
          (file.path = Manifest.path → Manifest.find? files = none) →
          (Manifest.Refused file →
            (detect (front ++ file :: back)).Answers (.error .malformedNumber)) ∧
          (¬ Manifest.Refused file →
            ∃ larger, (detect (front ++ file :: back)).Answers (.ok larger) ∧
              framework.Extends larger)) := by
  refine ⟨fun order single shuffled => detect_perm single shuffled, detect_fault, ?_⟩
  intro readable
  obtain ⟨members, consulted⟩ := Manifest.consult_answers readable
  refine ⟨_, detect_of_consult consulted, nodup_ofSignals _ _, primary_ofSignals _ _, ?_⟩
  rintro front back file rfl fits
  have decided := Manifest.unreadable_insert_iff readable fits
  constructor
  · intro refused
    exact detect_fault (decided.mpr refused)
  · intro accepted
    exact exists_extends_insert consulted fits (mt decided.mp accepted)

/-- A manifest with one dependency, which can be read. -/
def plainManifest : SourceFile :=
  ⟨Manifest.path, "\x7b\"dependencies\": \x7b\"react\": \"18\"\x7d\x7d"⟩

/-- The manifest with one dependency is read, so that it is not refused. -/
theorem plainManifest_readable : ¬ Manifest.Refused plainManifest := by
  rintro ⟨_, refused⟩
  have read : (Json.read plainManifest.content).toOption.isSome = true := by decide +kernel
  rw [refused] at read
  cases read

/-- A manifest that is one whole number with a figure too many is refused. -/
theorem refusedManifest_refused : Manifest.Refused Extraction.refusedManifest :=
  ⟨rfl, Json.read_ones (Nat.lt_succ_self _)⟩

/-- There is no manifest beside the page of the sample. -/
theorem find?_samplePage : Manifest.find? [Extraction.samplePage] = none := by decide +kernel

/-- The page alone is readable, since there is no manifest that could be refused. -/
theorem samplePage_readable : ¬ Manifest.Unreadable [Extraction.samplePage] := by
  rintro ⟨file, found, _⟩
  simp [find?_samplePage] at found

/-- A page and a manifest can be given in both orders, and the manifest only adds to what the
page tells. A refused manifest in its place ends the detection. -/
theorem samplePage_is_extended :
    detect [plainManifest, Extraction.samplePage] = detect [Extraction.samplePage, plainManifest] ∧
    (detect [Extraction.refusedManifest]).Answers (.error .malformedNumber) ∧
    (∃ framework, (detect [Extraction.samplePage]).Answers (.ok framework) ∧
      framework.detected.Nodup ∧ framework.primary = framework.detected.head? ∧
      (detect [Extraction.samplePage, Extraction.refusedManifest]).Answers
        (.error .malformedNumber) ∧
      ∃ larger, (detect [Extraction.samplePage, plainManifest]).Answers (.ok larger) ∧
        framework.Extends larger) := by
  refine ⟨?_, ?_, ?_⟩
  · exact (detection_is_orderless_and_monotone [Extraction.samplePage, plainManifest]).1 _
      (by unfold Manifest.Single; decide +kernel) (List.Perm.swap _ _ _)
  · exact (detection_is_orderless_and_monotone _).2.1 (Extraction.unreadable_refusedManifest [])
  · obtain ⟨framework, answered, distinct, primary, inserted⟩ :=
      (detection_is_orderless_and_monotone _).2.2 samplePage_readable
    refine ⟨framework, answered, distinct, primary, ?_, ?_⟩
    · exact (inserted [_] [] _ rfl fun _ => find?_samplePage).1 refusedManifest_refused
    · exact (inserted [_] [] _ rfl fun _ => find?_samplePage).2 plainManifest_readable

/-- A refused manifest takes the labels of the page away, although there was no other manifest
before: the detection ends with a fault. -/
theorem refused_manifest_ends_detection :
    Manifest.find? [Extraction.samplePage] = none ∧
    (∃ framework, (detect [Extraction.samplePage]).Answers (.ok framework) ∧
      appRouter ∈ framework.detected) ∧
    ¬ ∃ larger, (detect [Extraction.samplePage, Extraction.refusedManifest]).Answers
      (.ok larger) := by
  refine ⟨find?_samplePage, ?_, ?_⟩
  · obtain ⟨framework, answered⟩ := detect_answers samplePage_readable
    refine ⟨framework, answered, (appRouter_mem_detected answered).mpr ?_⟩
    refine ⟨Extraction.samplePage, List.mem_singleton_self _, ?_⟩
    have routed : (RouteFile.appRoute? Extraction.samplePage.path).isSome = true := by
      decide +kernel
    exact Option.isSome_iff_ne_none.mp routed
  · rintro ⟨larger, answered⟩
    have unreadable : Manifest.Unreadable ([Extraction.samplePage] ++
        Extraction.refusedManifest :: []) :=
      (Manifest.unreadable_insert_iff samplePage_readable fun _ => find?_samplePage).mpr
        refusedManifest_refused
    cases answered.unique (detect_fault unreadable)

end Framework

end ScreenAtlas
