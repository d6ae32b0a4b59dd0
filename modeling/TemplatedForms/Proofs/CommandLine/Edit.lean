import TemplatedForms.Proofs.Settings.Operation
import TemplatedForms.Proofs.Settings.Storage

namespace TemplatedForms

namespace Workspace

/-- Where steps lead depends only on which places are directories. -/
theorem walk?_congr {root root' : FileTree}
    (h : ∀ q, FileTree.isDirectory (root'.get? q) = FileTree.isDirectory (root.get? q))
    (place steps : List String) : walk? root' place steps = walk? root place steps := by
  induction steps generalizing place with
  | nil => rfl
  | cons step steps ih => simp only [walk?, h, ih]

theorem locate?_congr (w w' : Workspace) (hdirectory : w'.directory = w.directory)
    (h : ∀ q, FileTree.isDirectory (w'.root.get? q) = FileTree.isDirectory (w.root.get? q))
    (path : String) : w'.locate? path = w.locate? path := by
  simp only [locate?, hdirectory, walk?_congr h, h]

variable {w : Workspace} {args : List String} {command : Command}

theorem call_of_ok (h : Request.ofArguments args = .run command) {files : FileTree}
    (hrun : Outcome.files <$> command.run w = .ok files) :
    (w.call args).code = 0 ∧ (w.call args).files = files := by
  cases hr : command.run w with
  | error e =>
    rw [hr] at hrun
    cases hrun
  | ok r =>
    rw [hr] at hrun
    cases hrun
    simp only [call, h, hr, and_self]

theorem call_of_error (h : Request.ofArguments args = .run command) {e : CommandError}
    (hrun : Outcome.files <$> command.run w = .error e) :
    (w.call args).code = 1 ∧ (w.call args).files = w.root := by
  cases hr : command.run w with
  | error e => simp only [call, h, hr, and_self]
  | ok r =>
    rw [hr] at hrun
    cases hrun

end Workspace

theorem Command.withSettings_bind {α β : Type} (r : Except SettingsError α)
    (f : α → Except SettingsError β) :
    withSettings (r >>= f) = withSettings r >>= fun a ↦ withSettings (f a) := by
  cases r <;> rfl

namespace Settings

variable {s : Settings} {w : Workspace} {path id : String}

theorem exists_file_of_load (h : load w path = .ok s) (hid : id ∈ s.ids) :
    ∃ place text, w.locate? path = some place ∧ w.root.get? place = some (.file text) := by
  rw [load, Workspace.at?] at h
  cases hplace : w.locate? path with
  | none =>
    rw [hplace] at h
    cases h
    exact absurd hid List.not_mem_nil
  | some place =>
    rw [hplace, Option.bind_some] at h
    split at h
    · cases h
      exact absurd hid List.not_mem_nil
    · cases h
    · next text hfile => exact ⟨place, text, rfl, hfile⟩

section

variable {place : List String} {old : String} (hplace : w.locate? path = some place)
  (hfile : w.root.get? place = some (.file old))

include hplace

theorem save_of_free (hfree : w.root.get? (temporaryPlace place) = none) (s : Settings) :
    s.save w path = .ok (FileTree.put (.file s.text) place w.root) := by
  rw [save, hplace]
  dsimp only
  rw [hfree, FileTree.remove_of_get?_eq_none hfree]

include hfile

theorem load_put (h : ∀ x ∈ s.bounds, (JsonNumber.float x).ReadsBack) :
    load { w with root := FileTree.put (.file s.text) place w.root } path = .ok s := by
  let w' : Workspace := { w with root := FileTree.put (.file s.text) place w.root }
  have hlocate : w'.locate? path = w.locate? path :=
    Workspace.locate?_congr w w' rfl (FileTree.isDirectory_put hfile s.text) path
  rw [load, Workspace.at?, hlocate, hplace, Option.bind_some, FileTree.get?_put]
  exact ofText_text h

end

/-- What is done to a stored form by a command. -/
inductive Edit
  | toggle
  | delete

namespace Edit

def command : Edit → (path id : String) → Command
  | .toggle => .toggle
  | .delete => .delete

def result : Edit → FormRecord → List FormRecord
  | .toggle, r => [{ r with active := !r.active }]
  | .delete, _ => []

def perform : Edit → Settings → String → Except SettingsError Settings
  | .toggle, s, id => (·.2) <$> s.toggle id
  | .delete, s, id => (·.2) <$> s.delete id

variable (edit : Edit)

theorem perform_of_notMem (h : id ∉ s.ids) : edit.perform s id = .error (.formNotFound id) := by
  cases edit with
  | toggle => rw [perform, Settings.toggle, get_of_notMem h]; rfl
  | delete => rw [perform, Settings.delete, get_of_notMem h]; rfl

theorem exists_perform (h : id ∈ s.ids) :
    ∃ before r after, s.records = before ++ r :: after ∧ r.id = id ∧ (∀ r' ∈ before, r'.id ≠ id) ∧
      edit.perform s id = .ok ⟨before ++ edit.result r ++ after⟩ := by
  obtain ⟨before, r, after, hs, hr, hbefore, hget⟩ := exists_first h
  refine ⟨before, r, after, hs, hr, hbefore, ?_⟩
  cases edit with
  | toggle =>
    rw [perform, Settings.toggle, hget, hs, List.append_assoc]
    exact congrArg (Except.ok ∘ Settings.mk) (change_append hbefore hr _)
  | delete =>
    rw [perform, Settings.delete, hget, hs, result, List.append_nil]
    exact congrArg (Except.ok ∘ Settings.mk) (eraseP_append hbefore hr)

theorem bounds_result (r : FormRecord) : ∀ r' ∈ edit.result r, r'.form.bounds = r.form.bounds := by
  cases edit with
  | toggle => exact List.forall_mem_singleton.mpr rfl
  | delete => exact nofun

theorem bounds_subset {before after : List FormRecord} {r : FormRecord}
    (hs : s.records = before ++ r :: after) :
    bounds ⟨before ++ edit.result r ++ after⟩ ⊆ s.bounds := by
  intro x hx
  obtain ⟨r', hr', hx⟩ := List.mem_flatMap.mp hx
  refine List.mem_flatMap.mpr ?_
  rw [hs]
  rcases List.mem_append.mp hr' with hfront | hafter
  · rcases List.mem_append.mp hfront with hbefore | hresult
    · exact ⟨r', List.mem_append_left _ hbefore, hx⟩
    · rw [edit.bounds_result r r' hresult] at hx
      exact ⟨r, List.mem_append_right _ List.mem_cons_self, hx⟩
  · exact ⟨r', List.mem_append_right _ (List.mem_cons_of_mem r hafter), hx⟩

theorem files_run :
    Outcome.files <$> (edit.command path id).run w =
      Command.withSettings (do (← edit.perform (← load w path) id).save w path) := by
  cases edit with
  | toggle | delete =>
    simp only [command, Command.run, perform, Command.withSettings_bind, map_bind, bind_map_left,
      map_pure, bind_pure]

theorem files_run_of_absent (h : ¬∃ s, load w path = .ok s ∧ id ∈ s.ids) :
    ∃ e, Outcome.files <$> (edit.command path id).run w = .error e := by
  rw [files_run]
  cases hload : load w path with
  | error e => exact ⟨_, rfl⟩
  | ok s =>
    have hid : id ∉ s.ids := fun hid ↦ h ⟨s, hload, hid⟩
    refine ⟨.settings (.formNotFound id), ?_⟩
    change Command.withSettings (edit.perform s id >>= fun s ↦ s.save w path) = _
    rw [edit.perform_of_notMem hid]
    rfl

end Edit

/-- The program switches or removes a stored form, and ends with the code 0, exactly when the settings file
can be read and has a form with the identifier. Then the first such form is switched or removed in the
settings that are read from the file afterwards, all other forms are as they were and in their order, and
so is the text of every other file. Otherwise it ends with the code 1, and the files are as they were. -/
theorem edits_transform_the_file (edit : Edit) {args : List String}
    (hargs : Request.ofArguments args = .run (edit.command path id))
    (hfree : ∀ place, w.locate? path = some place → w.root.get? (temporaryPlace place) = none)
    (hnumbers : ∀ s, load w path = .ok s → ∀ x ∈ s.bounds, (JsonNumber.float x).ReadsBack) :
    let ending := w.call args
    (ending.code = 0 ↔ ∃ s, load w path = .ok s ∧ id ∈ s.ids) ∧
      (ending.code ≠ 0 → ending.code = 1 ∧ ending.files = w.root) ∧
      ∀ s, load w path = .ok s → id ∈ s.ids →
        ∃ before r after, s.records = before ++ r :: after ∧ r.id = id ∧ (∀ r' ∈ before, r'.id ≠ id) ∧
          load { w with root := ending.files } path = .ok ⟨before ++ edit.result r ++ after⟩ ∧
          ∀ q, w.locate? path ≠ some q → ending.files.text? q = w.root.text? q := by
  intro ending
  by_cases hfound : ∃ s, load w path = .ok s ∧ id ∈ s.ids
  · obtain ⟨s, hload, hid⟩ := hfound
    obtain ⟨place, old, hplace, hfile⟩ := exists_file_of_load hload hid
    obtain ⟨before, r, after, hs, hr, hbefore, hperform⟩ := edit.exists_perform hid
    let s' : Settings := ⟨before ++ edit.result r ++ after⟩
    have hfiles : Outcome.files <$> (edit.command path id).run w =
        .ok (FileTree.put (.file s'.text) place w.root) := by
      rw [edit.files_run, hload]
      change Command.withSettings (edit.perform s id >>= fun s ↦ s.save w path) = _
      rw [hperform]
      exact congrArg Command.withSettings (save_of_free hplace (hfree place hplace) s')
    obtain ⟨hcode, hending⟩ := Workspace.call_of_ok hargs hfiles
    refine ⟨⟨fun _ ↦ ⟨s, hload, hid⟩, fun _ ↦ hcode⟩, fun hne ↦ absurd hcode hne, ?_⟩
    intro s₁ hload₁ _
    obtain rfl : s = s₁ := Except.ok.inj (hload.symm.trans hload₁)
    refine ⟨before, r, after, hs, hr, hbefore, ?_, ?_⟩
    · rw [hending]
      exact load_put hplace hfile fun x hx ↦ hnumbers s hload x (edit.bounds_subset hs hx)
    · intro q hq
      rw [hending]
      exact FileTree.text?_put hfile s'.text fun heq ↦ hq (heq ▸ hplace)
  · obtain ⟨e, herror⟩ := edit.files_run_of_absent hfound
    obtain ⟨hcode, hending⟩ := Workspace.call_of_error hargs herror
    have hne : ending.code ≠ 0 := by
      rw [hcode]
      decide
    refine ⟨⟨fun h ↦ absurd h hne, fun h ↦ absurd h hfound⟩, fun _ ↦ ⟨hcode, hending⟩, ?_⟩
    exact fun s hload hid ↦ absurd ⟨s, hload, hid⟩ hfound

theorem edits_transform_the_file_first_of_two :
    let share : Field := ⟨"Share", "share", .number (some (-0.5)) (some 100), none, none, none, .flag true, false, none⟩
    let first : FormRecord := ⟨"a", true, ⟨"First", "a/", "Save", [share]⟩⟩
    let other : FormRecord := ⟨"b", false, ⟨"\"Other\"", "", "Submit", []⟩⟩
    let second : FormRecord := ⟨"a", false, ⟨"Second", "c/\n", "Submit", []⟩⟩
    let s : Settings := ⟨[other, first, second]⟩
    let w : Workspace :=
      ⟨.directory [("data", .directory [("forms.json", .file s.text), ("notes.md", .file "")])], ["data"]⟩
    let ending := w.call ["toggle", "--settings", "./forms.json", "a"]
    Request.ofArguments ["toggle", "--settings", "./forms.json", "a"] = .run (.toggle "./forms.json" "a") ∧
      ending.code = 0 ∧
      load { w with root := ending.files } "./forms.json" =
        .ok ⟨[other, { first with active := false }, second]⟩ ∧
      ending.files.text? ["data", "notes.md"] = some "" := by
  intro share first other second s w
  have hbounds : ∀ x ∈ s.bounds, (JsonNumber.float x).ReadsBack := by
    have hshare : s.bounds = [-0.5, 100] := rfl
    have hlow : (JsonNumber.float (-0.5)).ReadsBack := by
      unfold JsonNumber.ReadsBack
      decide +kernel
    have hhigh : (JsonNumber.float 100).ReadsBack := by
      unfold JsonNumber.ReadsBack
      decide +kernel
    rw [hshare]
    exact List.forall_mem_cons.mpr ⟨hlow, List.forall_mem_singleton.mpr hhigh⟩
  have hargs : Request.ofArguments ["toggle", "--settings", "./forms.json", "a"] =
      .run (Edit.toggle.command "./forms.json" "a") := rfl
  have hplace : w.locate? "./forms.json" = some ["data", "forms.json"] := rfl
  have hfile : w.root.get? ["data", "forms.json"] = some (.file s.text) := rfl
  have hload : load w "./forms.json" = .ok s := by
    rw [load, Workspace.at?, hplace, Option.bind_some, hfile]
    exact ofText_text hbounds
  have hfree : ∀ place, w.locate? "./forms.json" = some place →
      w.root.get? (temporaryPlace place) = none := by
    intro place h
    obtain rfl := Option.some.inj (hplace.symm.trans h)
    rfl
  have hnumbers : ∀ s, load w "./forms.json" = .ok s → ∀ x ∈ s.bounds, (JsonNumber.float x).ReadsBack := by
    intro s₁ h
    obtain rfl := Except.ok.inj (hload.symm.trans h)
    exact hbounds
  obtain ⟨hcode, -, hedit⟩ := edits_transform_the_file .toggle hargs hfree hnumbers
  have hid : "a" ∈ s.ids := by decide
  obtain ⟨before, r, after, hs, hr, hbefore, hafter, htexts⟩ := hedit s hload hid
  have hnotes : w.locate? "./forms.json" ≠ some ["data", "notes.md"] := by
    rw [hplace]
    decide
  refine ⟨hargs, hcode.mpr ⟨s, hload, hid⟩, ?_, htexts _ hnotes⟩
  -- the form in front of the first one with the identifier is the other one
  rcases before with _ | ⟨x, _ | ⟨y, before⟩⟩
  · obtain ⟨hother, -⟩ := List.cons.inj hs
    rw [← hother] at hr
    exact absurd hr (by decide)
  · obtain ⟨hx, hrest⟩ := List.cons.inj hs
    obtain ⟨hfirst, hsecond⟩ := List.cons.inj hrest
    rw [← hx, ← hfirst, ← hsecond] at hafter
    exact hafter
  · obtain ⟨-, hrest⟩ := List.cons.inj hs
    obtain ⟨hfirst, -⟩ := List.cons.inj hrest
    have hy := hbefore y (List.mem_cons_of_mem x List.mem_cons_self)
    rw [← hfirst] at hy
    exact absurd rfl hy

end Settings

end TemplatedForms
