import ScreenAtlas.Proofs.NearestDouble
import ScreenAtlas.Proofs.StoredRecords

/-!
# Records survive their stored form

Writing a record and reading it back gives the record again. Reading is lenient, so that
many objects are read as one record: fields may be missing, null or of another type,
items may be no objects, and the count of flows may be wrong. One reading settles all of
this. What was read is written in full and read back unchanged.

The confidence is compared as a number. A negative zero is read back as zero, which is
the same number; everything else is read back as it was.
-/
namespace ScreenAtlas

namespace Double

/-- The number that a finite double stands for. -/
def number? : Double → Option ℚ
  | .finite negative place => some (if negative then -magnitude place else magnitude place)
  | _ => none

/-- The smallest magnitude of a double, at its first place, is zero. -/
theorem magnitude_zero : magnitude 0 = 0 := by
  simp [magnitude, significand]

/-- A zero of either sign stands for the number zero, since the sign of zero does not count. -/
theorem number?_of_isZero {number : Double} (zero : number.isZero = true) :
    number.number? = some 0 := by
  cases number with
  | finite negative place =>
    have first : place.val = 0 := by simpa [isZero] using zero
    cases negative <;> simp [number?, first, magnitude_zero]
  | infinite negative => cases zero
  | notANumber => cases zero

/-- A double without the sign of zero stands for the same number, because only a zero is changed.
-/
theorem number?_unsigned (number : Double) : number.unsigned.number? = number.number? := by
  unfold unsigned
  split
  · next zero => rw [number?_of_isZero zero, number?_of_isZero (by decide)]
  · rfl

end Double

namespace Record

/-- Two records are the same when their confidences are the same number and everything
else is equal. -/
structure SameAs (left right : Record) : Prop where
  rest : { left with framework := { left.framework with
    confidence := right.framework.confidence } } = right
  confidence : ∃ number, left.framework.confidence.number? = some number ∧
    right.framework.confidence.number? = some number

/-- A record with its confidence as it is read back. -/
def unsigned (record : Record) : Record := { record with framework := record.framework.restored }

/-- A record is read back from its stored form but for the sign of zero. Stored as they are, its
values of free form stay unchanged. -/
theorem decode_encode (record : Record) : decode record.encode = .ok record.unsigned := by
  have screens : record.screens.map (Screen.restored id) = record.screens := List.map_id _
  have read : decode record.encode = .ok (record.restored id) :=
    Record.decode_arrange Faithful.plain record
  rw [read, restored, screens, unsigned]

/-- The sign of zero is lost at most once, so what was read back is read back unchanged. -/
theorem unsigned_unsigned (record : Record) : record.unsigned.unsigned = record.unsigned := by
  simp only [unsigned, Framework.restored, Double.unsigned_unsigned]

/-- The record without the sign of zero is the same one, if its confidence is finite and so stands
for a number. -/
theorem unsigned_sameAs {record : Record}
    (finite : record.framework.confidence.number?.isSome = true) :
    record.unsigned.SameAs record := by
  obtain ⟨number, given⟩ := Option.isSome_iff_exists.mp finite
  exact ⟨rfl, number, (Double.number?_unsigned _).trans given, given⟩

/-- Records survive their stored form.

Every record with a finite confidence is read back as the same record. So is every record
that was read from an object, whatever was missing from it or had another type, and
what is then read is exactly what a third reading gives.

Proof: only the sign of a zero confidence is not read back, and it does not change the
number. -/
theorem stored_form_keeps_records :
    (∀ record : Record, record.framework.confidence.number?.isSome = true →
      ∃ read, decode record.encode = .ok read ∧ read.SameAs record) ∧
    ∀ (payload : Members) (record : Record), decode payload = .ok record →
      record.framework.confidence.number?.isSome = true →
        ∃ again, decode record.encode = .ok again ∧ again.SameAs record ∧
          decode again.encode = .ok again := by
  constructor
  · intro record finite
    exact ⟨record.unsigned, record.decode_encode, unsigned_sameAs finite⟩
  · intro payload record _ finite
    refine ⟨record.unsigned, record.decode_encode, unsigned_sameAs finite, ?_⟩
    rw [decode_encode, unsigned_unsigned]

/-- An object in which hardly anything is as it should be. -/
def looseObject : Members :=
  [("analysisId", .int 7), ("repo", .null), ("filesAnalyzed", .text " 1_2 "),
    ("flowsCount", .int 99),
    ("flows", .list [.int 3, .object [("line", .bool true), ("calls", .text "ab")]]),
    ("screens", .list [.null, .object [("flows", .object [("x", .null)]),
      ("componentCode", .list [.int 1])]]),
    ("framework", .object [("detected", .null), ("primary", .int 5), ("confidence", .text "-0.0")])]

/-- The object is read as a record with one flow and one screen, and this record survives its
stored form. -/
theorem looseObject_is_read_once :
    ∃ record again, decode looseObject = .ok record ∧
      (record.analysisId, record.repo, record.filesAnalyzed) = ("7", "None", 12) ∧
      record.flows.map (fun flow => (flow.line, flow.calls)) = [(1, ["a", "b"])] ∧
      record.screens.map Screen.flows = [["x"]] ∧
      record.framework.confidence = Double.ofPlace true 0 ∧
      record.framework.confidence.number?.isSome = true ∧
      decode record.encode = .ok again ∧ again.SameAs record := by
  have found : ((decode looseObject).toOption.map fun record =>
      ((record.analysisId, record.repo, record.filesAnalyzed),
        record.flows.map (fun flow => (flow.line, flow.calls)),
        record.screens.map Screen.flows, record.framework.confidence)) =
      some (("7", "None", 12), [(1, ["a", "b"])], [["x"]], Double.ofPlace true 0) := by
    decide +kernel
  rcases read : decode looseObject with fault | record
  · simp [read, Except.toOption] at found
  · simp only [read, Except.toOption, Option.map_some, Option.some.injEq, Prod.mk.injEq] at found
    obtain ⟨⟨id, repo, files⟩, flows, screens, confidence⟩ := found
    have finite : record.framework.confidence.number?.isSome = true := by
      rw [confidence]
      rfl
    obtain ⟨again, written, same, _⟩ := stored_form_keeps_records.2 looseObject record read finite
    exact ⟨record, again, rfl, by simp [id, repo, files], flows, screens, confidence, finite,
      written, same⟩

end Record

end ScreenAtlas
