import ScreenAtlas.Fault

/-!
# Notes of a run

A run leaves notes for the user, each with a level of importance. What a run
computes is an ordinary value: the notes written so far are threaded through it
and stay when the run ends with a fault.
-/
namespace ScreenAtlas

/-- How important a note is; larger is more important. -/
abbrev Level := Int

/-- The level of notes that tell what was done. -/
def Level.info : Level := 20

/-- The level of notes about something that was passed over. -/
def Level.warning : Level := 30

/-- A note: its level, its text and, where known, what caused it. -/
structure Note where
  level : Level
  text : String
  detail : Option String := none
  deriving DecidableEq, Repr

/-- The whole text of a note. -/
def Note.message (note : Note) : String :=
  match note.detail with
  | none => note.text
  | some detail => note.text ++ ": " ++ detail

/-- A computation that leaves notes and may end with a fault. -/
abbrev Journal (α : Type) := ExceptT Fault (StateM (List Note)) α

namespace Journal

/-- Leaves a note. -/
def leave (note : Note) : Journal Unit := modify fun notes => notes ++ [note]

/-- Tells what was done. -/
def inform (text : String) : Journal Unit := leave { level := .info, text }

/-- Warns of something that was passed over. -/
def warn (text : String) (detail : Option String) : Journal Unit :=
  leave { level := .warning, text, detail }

/-- Runs a computation without earlier notes. -/
def outcome {α : Type} (journal : Journal α) : Except Fault α × List Note :=
  journal.run.run []

end Journal

end ScreenAtlas
