import TemplatedForms.Proofs.Reference

namespace TemplatedForms

/-- A text that starts at an offset, stretches of it with what replaces each of them, and the text that
comes out: what is outside of the stretches is kept. -/
inductive Replaced : (offset : Nat) → String → List (Span × String) → String → Prop
  | rest (offset : Nat) (text : String) : Replaced offset text [] text
  | next {offset : Nat} (kept old new : String) {text result : String} {edits : List (Span × String)} :
      Replaced (offset + kept.utf8ByteSize + old.utf8ByteSize) text edits result →
      Replaced offset (kept ++ (old ++ text))
        ((⟨offset + kept.utf8ByteSize, offset + kept.utf8ByteSize + old.utf8ByteSize⟩, new) :: edits)
        (kept ++ (new ++ result))

namespace Replaced

theorem one (offset : Nat) (old new : String) :
    Replaced offset old [(⟨offset, offset + old.utf8ByteSize⟩, new)] new := by
  have h := next "" old new (.rest (offset + "".utf8ByteSize + old.utf8ByteSize) "")
  simpa using h

theorem keep {offset : Nat} (kept : String) {text result : String} {edits : List (Span × String)}
    (h : Replaced (offset + kept.utf8ByteSize) text edits result) :
    Replaced offset (kept ++ text) edits (kept ++ result) := by
  cases h with
  | rest => exact .rest _ _
  | next kept' old new h =>
    rw [Nat.add_assoc offset, ← String.utf8ByteSize_append] at h
    have hnext := next (kept ++ kept') old new h
    simpa only [String.append_assoc, String.utf8ByteSize_append, Nat.add_assoc] using hnext

theorem append {offset : Nat} {text text' result result' : String} {edits edits' : List (Span × String)}
    (h : Replaced offset text edits result)
    (h' : Replaced (offset + text.utf8ByteSize) text' edits' result') :
    Replaced offset (text ++ text') (edits ++ edits') (result ++ result') := by
  induction h with
  | rest offset text => exact keep text h'
  | next kept old new _ ih =>
    simp only [String.append_assoc]
    refine .next kept old new (ih ?_)
    simpa only [String.utf8ByteSize_append, Nat.add_assoc] using h'

theorem unique {offset : Nat} {text result : String} {edits : List (Span × String)}
    (h : Replaced offset text edits result) {text' result' : String} (htext : text = text')
    (h' : Replaced offset text' edits result') : result = result' := by
  induction h generalizing text' result' with
  | rest offset text =>
    cases h'
    exact htext
  | @next offset kept old new text result edits _ ih =>
    generalize hedits : (_ :: edits : List (Span × String)) = edits' at h'
    cases h' with
    | rest => cases hedits
    | next kept' old' new' h' =>
      obtain ⟨hhead, rfl⟩ := List.cons.inj hedits
      obtain ⟨hspan, rfl⟩ := Prod.mk.inj hhead
      obtain ⟨hstart, hstop⟩ := Span.mk.inj hspan
      obtain ⟨rfl, hbehind⟩ := append_eq_of_size htext (Nat.add_left_cancel hstart)
      obtain ⟨rfl, hrest⟩ := append_eq_of_size hbehind (Nat.add_left_cancel hstop)
      rw [ih hrest h']

theorem iff_eq {offset : Nat} {text result : String} {edits : List (Span × String)}
    (h : Replaced offset text edits result) (result' : String) :
    Replaced offset text edits result' ↔ result' = result :=
  ⟨fun h' ↦ h'.unique rfl h, fun heq ↦ heq ▸ h⟩

end Replaced

end TemplatedForms
