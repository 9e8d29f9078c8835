import Phenotyping.CommandLine.Run
import Phenotyping.Proofs.RecordFiles
/-! # What the steps of a run do to the working directory

A run threads a console through its steps, and a step that fails keeps the console it failed
in. Every step but `writeFile` only reads the working directory. `Reads x spec` says that a
step leaves the directory as it is and that its value, when it has one, satisfies `spec` of
the directory it read; `Writes x d post` says that the step, run in the directory `d`, leaves
one that satisfies `post`, whether it fails or not. A run that fails before it writes therefore leaves
the directory as it was, and one that writes once changes it only as `create` does.
-/
namespace Phenotyping.CommandLine
set_option autoImplicit false

open Storage

/-- A step that reads and prints but leaves the directory as it is, and whose value, when it
succeeds, satisfies `spec` of the directory it ran in. -/
def Reads {α : Type} (x : Run α) (spec : Directory → α → Prop) : Prop :=
  ∀ c, ((x.run.run c).2).directory = c.directory ∧
    ∀ a, (x.run.run c).1 = .ok a → spec c.directory a

/-- A step that, run in the directory `d`, leaves a directory satisfying `post`, whether it
fails or not. -/
def Writes {α : Type} (x : Run α) (d : Directory) (post : Directory → Prop) : Prop :=
  ∀ c, c.directory = d → post ((x.run.run c).2).directory

theorem run_bind {α β : Type} (x : Run α) (f : α → Run β) (c : Console) :
    (x >>= f).run.run c = match x.run.run c with
      | (.ok a, c') => (f a).run.run c'
      | (.error e, c') => (.error e, c') := by
  simp only [ExceptT.run_bind, StateT.run_bind]
  generalize StateT.run (ExceptT.run x) c = r
  obtain ⟨_ | a, c'⟩ := r <;> rfl

namespace Reads

variable {α β : Type}

theorem bind {x : Run α} {f : α → Run β} {P : Directory → α → Prop} {Q : Directory → β → Prop}
    (hx : Reads x P) (hf : ∀ a, Reads (f a) fun d b => P d a → Q d b) : Reads (x >>= f) Q := by
  intro c
  obtain ⟨hdir, hval⟩ := hx c
  rw [run_bind]
  cases hrun : x.run.run c with
  | mk r c' =>
    rw [hrun] at hdir hval
    cases r with
    | error e => exact ⟨hdir, fun b hb => by cases hb⟩
    | ok a =>
      obtain ⟨hdir', hval'⟩ := hf a c'
      refine ⟨hdir'.trans hdir, fun b hb => ?_⟩
      have := hval' b hb (hdir ▸ hval a rfl)
      rwa [hdir] at this

theorem pure' (a : α) {P : Directory → α → Prop} (h : ∀ d, P d a) : Reads (pure a) P :=
  fun c => ⟨rfl, fun b hb => by cases hb; exact h _⟩

theorem throw' (e : String) {P : Directory → α → Prop} : Reads (throw e : Run α) P :=
  fun _ => ⟨rfl, fun b hb => by cases hb⟩

theorem mono {x : Run α} {P Q : Directory → α → Prop} (hx : Reads x P)
    (h : ∀ d a, P d a → Q d a) : Reads x Q :=
  fun c => ⟨(hx c).1, fun a ha => h _ _ ((hx c).2 a ha)⟩

theorem writes {x : Run α} {P : Directory → α → Prop} (hx : Reads x P) (d : Directory) :
    Writes x d fun d' => d' = d :=
  fun c hc => (hx c).1.trans hc

end Reads

namespace Writes

variable {α β : Type} {d : Directory} {post : Directory → Prop}

/-- A step that reads, then one that may write: if the first fails, nothing changed. -/
theorem bind_of_reads {x : Run α} {f : α → Run β} {P : Directory → α → Prop}
    (hx : Reads x P) (hd : post d) (hf : ∀ a, P d a → Writes (f a) d post) :
    Writes (x >>= f) d post := by
  intro c hc
  obtain ⟨hdir, hval⟩ := hx c
  rw [run_bind]
  cases hrun : x.run.run c with
  | mk r c' =>
    rw [hrun] at hdir hval
    cases r with
    | error e => exact (hdir.trans hc) ▸ hd
    | ok a => exact hf a (hc ▸ hval a rfl) c' (hdir.trans hc)

theorem bind_reads {x : Run α} {f : α → Run β} {Q : Directory → β → Prop}
    (hx : Writes x d post) (hf : ∀ a, Reads (f a) Q) : Writes (x >>= f) d post := by
  intro c hc
  have h := hx c hc
  rw [run_bind]
  cases hrun : x.run.run c with
  | mk r c' =>
    rw [hrun] at h
    cases r with
    | error e => exact h
    | ok a => exact ((hf a c').1).symm ▸ h

theorem mono {x : Run α} {post' : Directory → Prop} (hx : Writes x d post)
    (h : ∀ d', post d' → post' d') : Writes x d post' :=
  fun c hc => h _ (hx c hc)

end Writes

theorem run_get (c : Console) : (get : Run Console).run.run c = (.ok c, c) := rfl

theorem writes_writeFile (path text : String) (d : Directory) :
    Writes (writeFile path text) d fun d' => d' = d ∨ d.create path text.toUTF8.toList = .ok d' := by
  intro c hc
  subst hc
  unfold writeFile
  rw [run_bind, run_get]
  dsimp only
  cases c.directory.create path text.toUTF8.toList with
  | ok d' => exact Or.inr rfl
  | error e => exact Or.inl rfl

theorem reads_say (line : String) : Reads (say line) fun _ _ => True :=
  fun _ => ⟨rfl, fun _ _ => trivial⟩

theorem reads_warn (line : String) : Reads (warn line) fun _ _ => True :=
  fun _ => ⟨rfl, fun _ _ => trivial⟩

theorem reads_orFail {ε α : Type} (message : ε → String) (e : Except ε α) :
    Reads (orFail message e) fun _ a => e = .ok a := by
  cases e with
  | error err => exact Reads.throw' _
  | ok a => exact Reads.pure' a fun _ => rfl

theorem reads_openPath (path : String) : Reads (openPath path) fun d r => r = d.openRead path :=
  fun _ => ⟨rfl, fun _ h => by cases h; rfl⟩

theorem reads_present (path : String) : Reads (present path) fun d b => b = d.present path :=
  fun _ => ⟨rfl, fun _ h => by cases h; rfl⟩

theorem reads_tableRecords {α : Type} (path : String)
    (read : List UInt8 → Except Files.TableIoError (List α)) :
    Reads (tableRecords path read) fun d vs =>
      (∃ bytes, d.openRead path = .ok (.file bytes) ∧ read bytes = .ok vs) ∨
        (d.openRead path = .ok .directory ∧ vs = []) := by
  unfold tableRecords
  refine Reads.bind (reads_openPath path) fun r => ?_
  match r with
  | .ok (.file bytes) =>
    exact (reads_orFail _ _).mono fun d vs h hr => Or.inl ⟨bytes, hr.symm, h⟩
  | .ok .directory => exact Reads.pure' [] fun d hr => Or.inr ⟨hr.symm, rfl⟩
  | .error e => exact Reads.throw' _

theorem reads_tableBytes (path : String) :
    Reads (tableBytes path) fun d bytes => d.openRead path = .ok (.file bytes) := by
  unfold tableBytes
  refine Reads.bind (reads_openPath path) fun r => ?_
  match r with
  | .ok (.file bytes) => exact Reads.pure' bytes fun d hr => hr.symm
  | .ok .directory => exact Reads.throw' _
  | .error e => exact Reads.throw' _

theorem reads_loadTable (i : SampleOptions) :
    Reads (loadTable i) fun _ t => t.rows.length = i.expectedCells ∧ t.sample = i.sample := by
  unfold loadTable
  exact Reads.bind (reads_tableBytes _) fun bytes =>
    (reads_orFail _ _).mono fun _ t h _ => Files.readIntensity_ok h

theorem reads_foldlM {α β : Type} (g : β → α → Run β) (hg : ∀ b a, Reads (g b a) fun _ _ => True) :
    ∀ (l : List α) (b : β), Reads (l.foldlM g b) fun _ _ => True
  | [], b => Reads.pure' b fun _ => trivial
  | a :: l, b => by
    rw [List.foldlM_cons]
    exact Reads.bind (hg b a) fun b' => (reads_foldlM g hg l b').mono fun _ _ _ _ => trivial

theorem reads_forM {α : Type} (g : α → Run Unit) (hg : ∀ a, Reads (g a) fun _ _ => True) :
    ∀ l : List α, Reads (l.forM g) fun _ _ => True
  | [] => Reads.pure' () fun _ => trivial
  | a :: l => by
    show Reads (g a >>= fun _ => l.forM g) _
    exact Reads.bind (hg a) fun _ => (reads_forM g hg l).mono fun _ _ _ _ => trivial

theorem reads_loadThresholds (store : ThresholdStore) (path : String) :
    Reads (loadThresholds store path) fun _ _ => True := by
  unfold loadThresholds
  refine Reads.bind (reads_tableRecords _ _) fun records => ?_
  refine (reads_foldlM _ (fun s r => ?_) records store).mono fun _ _ _ _ => trivial
  exact Reads.bind (reads_orFail _ _) fun _ => Reads.pure' _ fun _ _ => trivial

theorem reads_loadConfig (config : Option String) :
    Reads (loadConfig config) fun _ _ => True := by
  cases config with
  | none => exact Reads.pure' _ fun _ => trivial
  | some path =>
    unfold loadConfig
    refine Reads.bind (reads_openPath path) fun r => ?_
    match r with
    | .error e => exact Reads.throw' _
    | .ok .directory => exact Reads.throw' _
    | .ok (.file bytes) =>
      dsimp only
      cases Text.decodeUtf8 bytes with
      | error _ => exact Reads.throw' _
      | ok text => exact (reads_orFail _ _).mono fun _ _ _ _ => trivial

theorem respond_directory {args : List String} {inv : Invocation} (h : parse args = .ok inv)
    (d : Directory) :
    (respond args d).directory = (((execute inv).run.run { directory := d }).2).directory := by
  unfold respond
  rw [h]
  dsimp only
  generalize (execute inv).run.run { directory := d } = r
  obtain ⟨result, c⟩ := r
  cases result <;> rfl

end Phenotyping.CommandLine
