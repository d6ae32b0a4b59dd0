import TemplatedForms.Proofs.Evaluation.Steps
import TemplatedForms.Proofs.Reference.ClassName
import TemplatedForms.Proofs.Resolution.Fields
import TemplatedForms.Proofs.Template

namespace TemplatedForms

def referenceTo (className : String) : String := "\x7b\x7b" ++ (Part.mark ++ className) ++ "\x7d\x7d"

theorem Template.region_referenceTo {className : String} (h : '}' ∉ className.toList) :
    Region (referenceTo className) [] (Part.mark ++ className).toList [] where
  text_eq := by
    rw [referenceTo, String.toList_append, String.toList_append, List.append_assoc]
    rfl
  before_clear h := absurd h.length_le (by decide)
  body_clear := by
    intro hclosing
    have hcount := hclosing.sublist.count_le '}'
    have hmark : '}' ∉ (Part.mark ++ className).toList := by
      rw [String.toList_append, List.mem_append, not_or]
      exact ⟨by decide, h⟩
    rw [List.count_append, List.count_eq_zero_of_not_mem hmark] at hcount
    revert hcount
    decide

theorem resolveFields_mark {className : String} (h : Part.IsName className.toList []) (values : Entries Value) :
    resolveFields values (Part.mark ++ className) = quoteLiteral (fieldText values className) := by
  rw [resolveFields_of_no_marker (Segment.no_marker_of_mark h.isClassNameChar), Part.fill, Part.ofText_mark h]
  simp [String.join_cons, Part.filled]

theorem execute_quoteLiteral (text : String) {stepLimit : Nat} (h : 0 < stepLimit) :
    execute stepLimit (quoteLiteral text) = .ok (.string text) := by
  have hparse : parse (quoteLiteral text) = .ok ⟨.literal (.string text), false⟩ := by
    rw [parse, tokenize_quoteLiteral]
    rfl
  have htakes : Evaluation.Takes (eval (.literal (.string text))) [] 1 (.ok (.string text)) :=
    Evaluation.takes_literal (.string text)
  have hrun := htakes stepLimit 0 (Nat.zero_le _)
  rw [if_pos (by omega)] at hrun
  rw [execute, hparse]
  dsimp only
  rw [Interpreter.run, Interpreter.new, hrun]

namespace Segment

theorem not_paired_of_no_percent {body : String} (h : '%' ∉ body.toList) : ¬Paired body := by
  rintro ⟨before, path, after, rfl⟩
  simp [marker] at h

theorem resolveDocuments_of_not_paired {body : String} (h : ¬Paired body) (store : Store) :
    resolveDocuments store body = return body := by
  rw [resolveDocuments, ofBody_of_not_paired h]
  exact congrArg (Noticed.mk · []) String.append_empty

end Segment

def Store.bare : Store where
  document path := .error (.documentNotFound path)
  folder path := .error (.folderNotFound path)
  structuredData d := .error (.documentNotFound d.path)
  children f := .error (.folderNotFound f.path)

theorem notices_of_paired {body : String} (h : Segment.Paired body) :
    (resolveDocuments .bare body).notices ≠ [] := by
  rcases Segment.ofBody_cases body with ⟨-, hno⟩ | ⟨text, path, rest, rfl, htext, hpath⟩
  · exact absurd h hno
  · rw [resolveDocuments, Segment.ofBody_of_clear htext hpath, Segment.resolveAll, Segment.resolveAll]
    have hnotices : ((Segment.document path).resolve .bare).notices ≠ [] := by
      by_cases hfolder : path.toList.getLast? == some '/'
      · have hlookup : Store.bare.lookup path = (none, some (.folderNotFound path)) := if_pos hfolder
        simp [Segment.resolve, hlookup, StoreError.notice?]
      · have hlookup : Store.bare.lookup path = (none, some (.documentNotFound path)) := if_neg hfolder
        simp [Segment.resolve, hlookup, StoreError.notice?]
    simp [hnotices]

namespace Context

variable (c : Context) {className : String} (h : Part.IsName className.toList [])

include h

theorem evaluate_referenceTo (values : Entries Value) :
    c.evaluate values (referenceTo className) = do
      let body ← resolveDocuments c.store (quoteLiteral (fieldText values className))
      match execute c.stepLimit body with
      | .ok v => return v
      | .error e =>
        Noticed.raise (.evaluationFailed (referenceTo className) e.message)
        return .string "" := by
  have hbrace : '\x7d' ∉ className.toList := fun hm ↦ by
    have hchar := h.isClassNameChar _ hm
    revert hchar
    decide
  have hsplit : Template.split (referenceTo className) = ⟨"", Part.mark ++ className, ""⟩ := by
    have hblank : (Part.mark ++ className).toList.all Text.isBlank = false := by
      rw [String.toList_append]
      rfl
    rw [Template.split_of_region (Template.region_referenceTo hbrace), hblank, String.ofList_toList]
    rfl
  simp only [evaluate, resolve, hsplit, resolveFields_mark h]
  rfl

theorem evaluate_referenceTo_of_not_paired {values : Entries Value} (hc : 0 < c.stepLimit)
    (ht : ¬Segment.Paired (quoteLiteral (fieldText values className))) :
    c.evaluate values (referenceTo className) = ⟨.string (fieldText values className), []⟩ := by
  rw [c.evaluate_referenceTo h, Segment.resolveDocuments_of_not_paired ht, Noticed.pure_bind,
    execute_quoteLiteral _ hc]
  rfl

theorem evaluate_referenceTo_of_fieldText {values : Entries Value} {text : String} (hc : 0 < c.stepLimit)
    (ht : fieldText values className = text) (hpercent : '%' ∉ (quoteLiteral text).toList) :
    c.evaluate values (referenceTo className) = ⟨.string text, []⟩ := by
  subst ht
  exact c.evaluate_referenceTo_of_not_paired h hc (Segment.not_paired_of_no_percent hpercent)

theorem notices_referenceTo_of_paired {values : Entries Value} {stepLimit : Nat}
    (ht : Segment.Paired (quoteLiteral (fieldText values className))) :
    ((Context.mk .bare stepLimit).evaluate values (referenceTo className)).notices ≠ [] := by
  rw [evaluate_referenceTo _ h]
  exact List.append_ne_nil_of_left_ne_nil (notices_of_paired ht) _

end Context

end TemplatedForms
