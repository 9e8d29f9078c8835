import Phenotyping.Storage.Directory
/-! # Files the working directory keeps

Creating a file and then opening the same path reads back what was written: a new file names
no directory, so every component before the last resolves as before, and a file that is
replaced keeps its name. The only other outcome is a path outside the working directory,
where nothing is created and nothing opens.
-/

namespace Phenotyping.Storage.Directory
set_option autoImplicit false

variable {d : Directory}

theorem step_eq_of_names {d' : Directory} (h : d'.files.map (·.1) = d.files.map (·.1)) :
    d'.step = d.step := by
  have hfind : ∀ name, (d'.find? name).isSome = (d.find? name).isSome := by
    intro name
    have hmem : ∀ e : Directory, (e.find? name).isSome = true ↔ name ∈ e.files.map (·.1) := by
      intro e
      simp [find?, List.find?_isSome]
    exact Bool.eq_iff_iff.mpr ((hmem d').trans (h ▸ (hmem d).symm))
  have hdir : ∀ cs, d'.hasDirectory cs = d.hasDirectory cs := by
    intro cs
    have hany : ∀ e : Directory, (e.files.any fun f => (nameOf cs ++ "/").isPrefixOf f.1) =
        ((e.files.map (·.1)).any fun n => (nameOf cs ++ "/").isPrefixOf n) := by
      intro e
      rw [List.any_map]
      rfl
    simp only [hasDirectory, hany, h]
  funext l n
  unfold step
  split <;> simp [hfind, hdir]

theorem hasDirectory_of_cons_nonempty (cs : List String) (hcs : cs ≠ []) :
    d.hasDirectory cs = d.files.any fun f => (nameOf cs ++ "/").isPrefixOf f.1 := by
  simp [hasDirectory, List.isEmpty_eq_false_iff.mpr hcs]

theorem step_append {name : String} {content : List UInt8}
    (hname : ∀ here, here ≠ [] → d.hasDirectory here = true → nameOf here ≠ name)
    {l l' : Location} {p : String} (h : d.step l p = .ok l') :
    (⟨d.files ++ [(name, content)]⟩ : Directory).step l p = .ok l' := by
  unfold step at h ⊢
  split at h <;> try exact h
  rename_i cs _ _ _
  dsimp only at h ⊢
  split at h
  · cases h
  · rename_i hfind
    split at h
    · rename_i hdir
      have hne : nameOf (cs ++ [p]) ≠ name := hname _ (by simp) hdir
      have hfind' : ((⟨d.files ++ [(name, content)]⟩ : Directory).find? (nameOf (cs ++ [p]))).isSome
          = false := by
        simp only [find?, List.find?_append, Option.isSome_map] at hfind ⊢
        simp only [Bool.not_eq_true] at hfind
        rw [Option.isSome_eq_false_iff, Option.isNone_iff_eq_none] at hfind
        simp [hfind, Ne.symm hne]
      have hdir' : (⟨d.files ++ [(name, content)]⟩ : Directory).hasDirectory (cs ++ [p]) = true := by
        simp only [hasDirectory, List.any_append, Bool.or_eq_true] at hdir ⊢
        rcases hdir with h1 | h1
        · exact Or.inl h1
        · exact Or.inr (Or.inl h1)
      rw [if_neg (by simp [hfind']), if_pos hdir']
      exact h
    · cases h

theorem foldlM_step_append {name : String} {content : List UInt8}
    (hname : ∀ here, here ≠ [] → d.hasDirectory here = true → nameOf here ≠ name)
    (ps : List String) (l₀ l : Location) (h : ps.foldlM d.step l₀ = .ok l) :
    ps.foldlM (⟨d.files ++ [(name, content)]⟩ : Directory).step l₀ = .ok l := by
  induction ps generalizing l₀ with
  | nil => exact h
  | cons p ps ih =>
    rw [List.foldlM_cons] at h ⊢
    cases hs : d.step l₀ p with
    | error e => rw [hs] at h; cases h
    | ok l₁ =>
      rw [hs] at h
      rw [step_append hname hs]
      exact ih l₁ h

theorem nameOf_ne_of_entry_absent {l : Location} {n name : String}
    (h : d.entry l n = .absent (some name)) :
    ∀ here, here ≠ [] → d.hasDirectory here = true → nameOf here ≠ name := by
  unfold entry at h
  split at h <;> try cases h
  rename_i cs n _ _ _
  dsimp only at h
  split at h
  · cases h
  · split at h
    · cases h
    · rename_i hdir
      cases h
      intro here hhere hdirHere heq
      rw [hasDirectory_of_cons_nonempty here hhere, heq] at hdirHere
      rw [hasDirectory_of_cons_nonempty _ (by simp)] at hdir
      exact absurd hdirHere (by simpa using hdir)

theorem entry_append {l : Location} {n name : String} {content : List UInt8}
    (h : d.entry l n = .absent (some name)) :
    (⟨d.files ++ [(name, content)]⟩ : Directory).entry l n = .file name content := by
  unfold entry at h ⊢
  split at h <;> try cases h
  dsimp only at h ⊢
  split at h
  · cases h
  · rename_i hnone
    split at h
    · cases h
    · cases h
      simp only [find?, Option.map_eq_none_iff] at hnone
      simp [find?, List.find?_append, hnone]

theorem entry_replace {l : Location} {n name : String} {bytes content : List UInt8}
    (h : d.entry l n = .file name bytes) :
    (⟨d.files.map fun (m, c) => if m = name then (m, content) else (m, c)⟩ : Directory).entry l n =
      .file name content := by
  unfold entry at h ⊢
  split at h <;> try cases h
  dsimp only at h ⊢
  split at h
  · rename_i b hsome
    cases h
    simp only [find?, Option.map_eq_some_iff] at hsome
    obtain ⟨x, hx, rfl⟩ := hsome
    generalize nameOf _ = N at hx ⊢
    have hx1 := List.find?_some hx
    simp only [decide_eq_true_eq] at hx1
    have hpred : ∀ y : String × List UInt8,
        ((if y.1 = N then (y.1, content) else (y.1, y.2)).1 = N) = (y.1 = N) := by
      intro y
      split <;> rfl
    simp only [find?, List.find?_map, Function.comp_def, hpred, hx, Option.map_some, hx1,
      ↓reduceIte]
  · split at h <;> cases h

theorem resolve_eq (path : String) :
    d.resolve path = match ((path.splitOn "/").filter (· ≠ "")).getLast? with
      | none => .ok (.directory, path.endsWith "/")
      | some n => (((path.splitOn "/").filter (· ≠ "")).dropLast.foldlM d.step
          (if path.startsWith "/" then .outside else .inside [])).map
          fun l => (d.entry l n, path.endsWith "/") := by
  unfold resolve
  dsimp only
  cases ((path.splitOn "/").filter (· ≠ "")).getLast? with
  | none => rfl
  | some n =>
    cases List.foldlM d.step (if path.startsWith "/" then .outside else .inside []) _ <;> rfl

/-- A file created at a path reads back from it; a path outside the working directory creates
nothing and reads nothing. -/
theorem openRead_of_create {path : String} {content : List UInt8} {d' : Directory}
    (h : d.create path content = .ok d') :
    d'.openRead path = .ok (.file content) ∨ (d' = d ∧ d.openRead path = .error .notFound) := by
  -- a resolution that ends at the entry `place` of the last component
  have hparts : ∀ (e : Directory) {place : Place} {trailing : Bool},
      e.resolve path = .ok (place, trailing) → trailing = path.endsWith "/" ∧
        (((path.splitOn "/").filter (· ≠ "")).getLast? = none ∧ place = .directory ∨
          ∃ n l, ((path.splitOn "/").filter (· ≠ "")).getLast? = some n ∧
            ((path.splitOn "/").filter (· ≠ "")).dropLast.foldlM e.step
              (if path.startsWith "/" then .outside else .inside []) = .ok l ∧ place = e.entry l n) := by
    intro e place trailing hres
    rw [resolve_eq] at hres
    split at hres
    · cases hres
      exact ⟨rfl, Or.inl ⟨‹_›, rfl⟩⟩
    · rename_i n hn
      cases hfold : List.foldlM e.step (if path.startsWith "/" then .outside else .inside [])
          ((path.splitOn "/").filter (· ≠ "")).dropLast with
      | error err => rw [hfold] at hres; cases hres
      | ok l =>
        rw [hfold] at hres
        cases hres
        exact ⟨rfl, Or.inr ⟨n, l, hn, rfl, rfl⟩⟩
  have hread : ∀ (e : Directory) (n : String) (l : Location),
      ((path.splitOn "/").filter (· ≠ "")).getLast? = some n →
      ((path.splitOn "/").filter (· ≠ "")).dropLast.foldlM e.step
        (if path.startsWith "/" then .outside else .inside []) = .ok l →
      path.endsWith "/" = false →
      (∀ name bytes, e.entry l n = .file name bytes → e.openRead path = .ok (.file bytes)) ∧
        (∀ o, e.entry l n = .absent o → e.openRead path = .error .notFound) := by
    intro e n l hn hfold htrail
    have hres : e.resolve path = .ok (e.entry l n, false) := by
      rw [resolve_eq, hn, hfold, htrail]
      rfl
    unfold openRead
    rw [hres]
    constructor
    · intro name bytes hentry
      rw [hentry]
      rfl
    · intro o hentry
      rw [hentry]
      rfl
  unfold create at h
  cases hres : d.resolve path with
  | error e => rw [hres] at h; cases h
  | ok pt =>
    obtain ⟨place, trailing⟩ := pt
    obtain ⟨htrail, hplace⟩ := hparts d hres
    rw [hres] at h
    cases trailing with
    | true => cases h
    | false =>
    simp only [bind, Except.bind, Bool.false_eq_true, if_false] at h
    rcases hplace with ⟨_, rfl⟩ | ⟨n, l, hn, hfold, rfl⟩
    · cases h
    · split at h
      · cases h
      · -- an existing file is replaced: the names stay, so the path resolves as before
        rename_i name bytes hentry
        cases h
        left
        have hnames : (d.files.map fun (m, c) => if m = name then (m, content) else (m, c)).map (·.1) =
            d.files.map (·.1) := by
          rw [List.map_map]
          congr 1
          funext x
          simp only [Function.comp_apply]
          split <;> rfl
        exact (hread _ n l hn (by rw [step_eq_of_names hnames]; exact hfold) htrail.symm).1 name
          content (entry_replace hentry)
      · -- a new file: it names no directory, so the path still resolves through the same ones
        rename_i name hentry
        cases h
        left
        exact (hread _ n l hn (foldlM_step_append (nameOf_ne_of_entry_absent hentry) _ _ _ hfold)
          htrail.symm).1 name content (entry_append hentry)
      · rename_i hentry
        cases h
        right
        refine ⟨rfl, ?_⟩
        exact (hread d n l hn hfold htrail.symm).2 none hentry

theorem create_of_openRead_directory {path : String} (h : d.openRead path = .ok .directory)
    (content : List UInt8) : ∃ e, d.create path content = .error e := by
  unfold openRead at h
  unfold create
  cases hres : d.resolve path with
  | error e => exact ⟨e, by simp [bind, Except.bind]⟩
  | ok pt =>
    obtain ⟨place, trailing⟩ := pt
    rw [hres] at h
    simp only [bind, Except.bind] at h
    cases place with
    | file name bytes => cases trailing <;> cases h
    | absent n => cases h
    | directory =>
      cases trailing <;> exact ⟨.isADirectory, rfl⟩

theorem openRead_of_present_false {path : String} (h : d.present path = false) :
    ∃ e, d.openRead path = .error e := by
  unfold present at h
  unfold openRead
  cases hres : d.resolve path with
  | error e => exact ⟨e, by simp [bind, Except.bind]⟩
  | ok pt =>
    obtain ⟨place, trailing⟩ := pt
    rw [hres] at h
    cases place with
    | file name bytes =>
      cases trailing with
      | true => exact ⟨.notADirectory, rfl⟩
      | false => cases h
    | directory => cases h
    | absent n => exact ⟨.notFound, rfl⟩

end Phenotyping.Storage.Directory
