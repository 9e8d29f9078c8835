import Mathlib.Data.List.Nodup
import Phenotyping.Threshold.Store
/-! # The threshold store as the record of its runs

Every call that changes the store is one of `beginRun`, `commit` and `record`; `get` and
`snapshot` only read it. Running any sequence of such calls from an empty store leaves a
history of issued tickets and offered values. The store is a function of that history: the
tickets of a key are numbered 1, 2, 3, ... in issue order, and the current entry of a key is
the finite offered value of greatest generation. Each commit compares the incoming generation
with the stored one only, which is enough because the stored generation is the greatest of
all accepted commits.
-/
namespace Phenotyping
namespace ThresholdStore
set_option autoImplicit false

/-! ## Key states -/

theorem stateOf_setState (s : ThresholdStore) (k k' : ThresholdKey) (ks : KeyState) :
    (s.setState k ks).stateOf k' = if k' = k then ks else s.stateOf k' := by
  obtain ⟨tol, states⟩ := s
  simp only [stateOf, setState]
  induction states with
  | nil =>
    by_cases hk : k' = k
    · subst hk; simp [setStates]
    · simp [setStates, Ne.symm hk, hk]
  | cons p ps ih =>
    by_cases hp : p.1 = k
    · by_cases hk : k' = k
      · subst hk; simp [setStates, hp]
      · simp [setStates, hp, hk, Ne.symm hk]
    · by_cases hpk : p.1 = k'
      · have hk : ¬k' = k := fun h => hp (hpk.trans h)
        simp [setStates, hpk, hk]
      · simpa [setStates, hp, hpk] using ih

theorem setState_stateOf {s : ThresholdStore} {k : ThresholdKey} {e : ThresholdEntry}
    (h : (s.stateOf k).current = some e) : s.setState k (s.stateOf k) = s := by
  obtain ⟨tol, states⟩ := s
  simp only [stateOf, setState] at h ⊢
  congr 1
  induction states with
  | nil => simp at h
  | cons p ps ih =>
    by_cases hp : p.1 = k
    · subst hp; simp [setStates]
    · simp only [List.find?_cons, hp, decide_false] at h
      simp [setStates, hp, ih h]

@[simp] theorem driftTolerance_setState (s : ThresholdStore) (k : ThresholdKey) (ks : KeyState) :
    (s.setState k ks).driftTolerance = s.driftTolerance := rfl

@[simp] theorem stateOf_empty (tol : Float) (k : ThresholdKey) : (empty tol).stateOf k = {} := rfl

/-! ## One call -/

theorem beginRun_fst (s : ThresholdStore) (sample channel : String) :
    (s.beginRun sample channel).1 = ⟨⟨sample, channel⟩, (s.stateOf ⟨sample, channel⟩).issued + 1⟩ :=
  rfl

theorem beginRun_snd (s : ThresholdStore) (sample channel : String) :
    (s.beginRun sample channel).2 = s.setState ⟨sample, channel⟩
      { s.stateOf ⟨sample, channel⟩ with issued := (s.stateOf ⟨sample, channel⟩).issued + 1 } :=
  rfl

theorem commit_of_not_finite {s : ThresholdStore} {t : RunTicket} {value : Float} {origin : String}
    (h : Binary64.isFinite value = false) :
    s.commit t value origin = .error (.nonFiniteValue t.key.sample t.key.channel value) := by
  simp [commit, h]

theorem commit_of_finite {s : ThresholdStore} {t : RunTicket} {value : Float} {origin : String}
    (h : Binary64.isFinite value = true) :
    s.commit t value origin =
      .ok ((settle s.driftTolerance (s.stateOf t.key).current ⟨value, origin, t.generation⟩).1,
        s.setState t.key
          { s.stateOf t.key with
            current := some (settle s.driftTolerance (s.stateOf t.key).current
              ⟨value, origin, t.generation⟩).2 }) := by
  simp [commit, h]

/-! ## Histories -/

inductive StoreCall where
  | beginRun (sample channel : String)
  | commit (ticket : RunTicket) (value : Float) (origin : String)
  | record (sample channel : String) (value : Float) (origin : String)

/-- What the store went through: a run issued, or a run's value offered with the answer. -/
inductive StoreEvent where
  | issued (ticket : RunTicket)
  | offered (ticket : RunTicket) (value : Float) (origin : String)
      (answer : Except ThresholdError ThresholdUpdate)

namespace StoreEvent

def ticketOn (k : ThresholdKey) : StoreEvent → Option RunTicket
  | .issued t => if t.key = k then some t else none
  | .offered .. => none

/-- The entry an event committed on key `k`: a finite value offered there. -/
def entryOn (k : ThresholdKey) : StoreEvent → Option ThresholdEntry
  | .issued _ => none
  | .offered t value origin _ =>
    if t.key = k ∧ Binary64.isFinite value = true then some ⟨value, origin, t.generation⟩ else none

def offeredTicket : StoreEvent → Option RunTicket
  | .issued _ => none
  | .offered t .. => some t

@[simp] theorem entryOn_issued (k : ThresholdKey) (t : RunTicket) :
    (StoreEvent.issued t).entryOn k = none := rfl

@[simp] theorem ticketOn_offered (k : ThresholdKey) (t : RunTicket) (value : Float)
    (origin : String) (answer : Except ThresholdError ThresholdUpdate) :
    (StoreEvent.offered t value origin answer).ticketOn k = none := rfl

end StoreEvent

def perform (s : ThresholdStore) : StoreCall → ThresholdStore × List StoreEvent
  | .beginRun sample channel =>
    let (t, s') := s.beginRun sample channel
    (s', [.issued t])
  | .commit t value origin =>
    match s.commit t value origin with
    | .ok (u, s') => (s', [.offered t value origin (.ok u)])
    | .error e => (s, [.offered t value origin (.error e)])
  | .record sample channel value origin =>
    let t := (s.beginRun sample channel).1
    let (s', answer) := s.record sample channel value origin
    (s', [.issued t, .offered t value origin answer])

def exec (s : ThresholdStore) : List StoreCall → ThresholdStore × List StoreEvent
  | [] => (s, [])
  | c :: cs =>
    let (s₁, es₁) := s.perform c
    let (s₂, es₂) := exec s₁ cs
    (s₂, es₁ ++ es₂)

theorem perform_record (s : ThresholdStore) (sample channel : String) (value : Float)
    (origin : String) :
    s.perform (.record sample channel value origin) =
      let (s₁, es₁) := s.perform (.beginRun sample channel)
      let (s₂, es₂) := s₁.perform (.commit (s.beginRun sample channel).1 value origin)
      (s₂, es₁ ++ es₂) := by
  simp only [perform, record]
  cases (s.beginRun sample channel).2.commit (s.beginRun sample channel).1 value origin with
  | ok r => rfl
  | error e => rfl

/-! ## The invariant -/

/-- `o` is the newest entry of `l`: nothing when `l` is empty, else a member of greatest
generation. -/
def Newest (l : List ThresholdEntry) : Option ThresholdEntry → Prop
  | none => l = []
  | some e => e ∈ l ∧ ∀ e' ∈ l, e'.generation ≤ e.generation

theorem newest_settle {l : List ThresholdEntry} {cur : Option ThresholdEntry} (h : Newest l cur)
    (tol : Float) (incoming : ThresholdEntry) :
    Newest (l ++ [incoming]) (some (settle tol cur incoming).2) := by
  cases cur with
  | none =>
    simp only [Newest] at h
    subst h
    simp [Newest, settle]
  | some c =>
    obtain ⟨hmem, hmax⟩ := h
    by_cases hgt : c.generation > incoming.generation
    · simp only [settle, hgt, if_true]
      refine ⟨List.mem_append_left _ hmem, fun e' he' => ?_⟩
      rcases List.mem_append.mp he' with he' | he'
      · exact hmax e' he'
      · rw [List.mem_singleton.mp he']
        omega
    · simp only [settle, hgt, if_false]
      refine ⟨by simp, fun e' he' => ?_⟩
      rcases List.mem_append.mp he' with he' | he'
      · have := hmax e' he'
        omega
      · obtain rfl := List.mem_singleton.mp he'
        exact Nat.le_refl _

/-- The store agrees with a history: it keeps the tolerance, each key has issued one
generation per ticket of the history, numbered from 1 in issue order, and each key holds the
newest value committed on it. -/
structure Tracks (tol : Float) (s : ThresholdStore) (es : List StoreEvent) : Prop where
  tolerance : s.driftTolerance = tol
  issued : ∀ k, (s.stateOf k).issued = (es.filterMap (StoreEvent.ticketOn k)).length
  numbered : ∀ k, (es.filterMap (StoreEvent.ticketOn k)).map (·.generation) =
    List.range' 1 (es.filterMap (StoreEvent.ticketOn k)).length
  newest : ∀ k, Newest (es.filterMap (StoreEvent.entryOn k)) (s.stateOf k).current

theorem tracks_empty (tol : Float) : Tracks tol (empty tol) [] where
  tolerance := rfl
  issued _ := rfl
  numbered _ := rfl
  newest _ := rfl

section Steps

variable {tol : Float} {s : ThresholdStore} {es : List StoreEvent}

theorem Tracks.beginRun (h : Tracks tol s es) (sample channel : String) :
    Tracks tol (s.perform (.beginRun sample channel)).1
      (es ++ (s.perform (.beginRun sample channel)).2) := by
  simp only [perform, beginRun_snd]
  refine ⟨h.tolerance, fun k => ?_, fun k => ?_, fun k => ?_⟩
  · rw [stateOf_setState, List.filterMap_append]
    by_cases hk : k = ⟨sample, channel⟩
    · subst hk
      simp [StoreEvent.ticketOn, beginRun_fst, h.issued]
    · simp [StoreEvent.ticketOn, beginRun_fst, hk, Ne.symm hk, h.issued]
  · rw [List.filterMap_append]
    by_cases hk : k = ⟨sample, channel⟩
    · subst hk
      simp only [StoreEvent.ticketOn, beginRun_fst, if_true, List.filterMap_cons,
        List.filterMap_nil, List.map_append, List.map_cons, List.map_nil, h.numbered,
        List.length_append, List.length_singleton, ← h.issued]
      rw [List.range'_concat]
      simp [Nat.add_comm]
    · simp [StoreEvent.ticketOn, beginRun_fst, Ne.symm hk, h.numbered]
  · rw [stateOf_setState, List.filterMap_append]
    by_cases hk : k = ⟨sample, channel⟩
    · subst hk
      simpa [List.filterMap_cons] using h.newest _
    · simpa [List.filterMap_cons, hk] using h.newest k

theorem Tracks.commit (h : Tracks tol s es) (t : RunTicket) (value : Float) (origin : String) :
    Tracks tol (s.perform (.commit t value origin)).1
      (es ++ (s.perform (.commit t value origin)).2) := by
  cases hv : Binary64.isFinite value with
  | false =>
    -- a refused value leaves the store as it was and commits nothing
    simp only [perform, commit_of_not_finite hv]
    refine ⟨h.tolerance, fun k => ?_, fun k => ?_, fun k => ?_⟩
    · simpa [List.filterMap_cons] using h.issued k
    · simpa [List.filterMap_cons] using h.numbered k
    · simpa [List.filterMap_cons, StoreEvent.entryOn, hv] using h.newest k
  | true =>
    simp only [perform, commit_of_finite hv]
    refine ⟨h.tolerance, fun k => ?_, fun k => ?_, fun k => ?_⟩
    · rw [stateOf_setState]
      by_cases hk : k = t.key
      · subst hk
        simpa [List.filterMap_cons] using h.issued _
      · simpa [List.filterMap_cons, hk] using h.issued k
    · simpa [List.filterMap_cons] using h.numbered k
    · rw [stateOf_setState, List.filterMap_append]
      by_cases hk : k = t.key
      · subst hk
        simpa [List.filterMap_cons, StoreEvent.entryOn, hv] using
          newest_settle (h.newest t.key) s.driftTolerance ⟨value, origin, t.generation⟩
      · simpa [List.filterMap_cons, StoreEvent.entryOn, hk, Ne.symm hk] using h.newest k

theorem Tracks.record (h : Tracks tol s es) (sample channel : String) (value : Float)
    (origin : String) :
    Tracks tol (s.perform (.record sample channel value origin)).1
      (es ++ (s.perform (.record sample channel value origin)).2) := by
  have hbegun := h.beginRun sample channel
  have hcommitted := hbegun.commit (s.beginRun sample channel).1 value origin
  rw [perform_record]
  simpa only [List.append_assoc] using hcommitted

/-- Every call keeps the store in step with its history. -/
theorem Tracks.perform (h : Tracks tol s es) (c : StoreCall) :
    Tracks tol (s.perform c).1 (es ++ (s.perform c).2) := by
  cases c with
  | beginRun sample channel => exact h.beginRun sample channel
  | commit t value origin => exact h.commit t value origin
  | record sample channel value origin => exact h.record sample channel value origin

end Steps

theorem Tracks.exec {tol : Float} {s : ThresholdStore} {es : List StoreEvent} (h : Tracks tol s es)
    (calls : List StoreCall) : Tracks tol (s.exec calls).1 (es ++ (s.exec calls).2) := by
  induction calls generalizing s es with
  | nil => simpa [ThresholdStore.exec] using h
  | cons c cs ih =>
    have hrest := ih (h.perform c)
    simpa only [ThresholdStore.exec, List.append_assoc] using hrest

theorem tracks_exec_empty (tol : Float) (calls : List StoreCall) :
    Tracks tol ((empty tol).exec calls).1 ((empty tol).exec calls).2 := by
  simpa using (tracks_empty tol).exec calls

/-! ## What a history determines -/

theorem get_eq_current (s : ThresholdStore) (k : ThresholdKey) :
    s.get k.sample k.channel = (s.stateOf k).current := rfl

theorem StoreEvent.offeredTicket_of_entryOn {e : StoreEvent} {k : ThresholdKey}
    {x : ThresholdEntry} (h : e.entryOn k = some x) : e.offeredTicket = some ⟨k, x.generation⟩ := by
  cases e with
  | issued t => simp at h
  | offered t value origin answer =>
    simp only [StoreEvent.entryOn] at h
    split at h
    · rename_i hk
      obtain ⟨hkey, -⟩ := hk
      cases h
      simp [StoreEvent.offeredTicket, ← hkey]
    · cases h

theorem generations_nodup {es : List StoreEvent}
    (hn : (es.filterMap StoreEvent.offeredTicket).Nodup) (k : ThresholdKey) :
    ((es.filterMap (StoreEvent.entryOn k)).map (·.generation)).Nodup := by
  induction es with
  | nil => simp
  | cons e es ih =>
    cases he : e.entryOn k with
    | none =>
      have hrest : (es.filterMap StoreEvent.offeredTicket).Nodup := by
        cases ho : e.offeredTicket with
        | none => simpa only [List.filterMap_cons, ho] using hn
        | some t =>
          simp only [List.filterMap_cons, ho] at hn
          exact (List.nodup_cons.mp hn).2
      simpa [List.filterMap_cons, he] using ih hrest
    | some x =>
      have ho := StoreEvent.offeredTicket_of_entryOn he
      simp only [List.filterMap_cons, ho] at hn
      obtain ⟨hfresh, hrest⟩ := List.nodup_cons.mp hn
      rw [List.filterMap_cons, he, List.map_cons]
      refine List.nodup_cons.mpr ⟨fun hx => ?_, ih hrest⟩
      -- an earlier value of the same generation would have come from the same ticket
      obtain ⟨y, hy, hgen⟩ := List.mem_map.mp hx
      obtain ⟨e', he', hy'⟩ := List.mem_filterMap.mp hy
      apply hfresh
      rw [← hgen]
      exact List.mem_filterMap.mpr ⟨e', he', StoreEvent.offeredTicket_of_entryOn hy'⟩

section Conclusions

variable {tol : Float} {s : ThresholdStore} {es : List StoreEvent}

theorem Tracks.get_eq_none_iff (h : Tracks tol s es) (k : ThresholdKey) :
    s.get k.sample k.channel = none ↔ es.filterMap (StoreEvent.entryOn k) = [] := by
  have hn := h.newest k
  rw [get_eq_current]
  cases hc : (s.stateOf k).current with
  | none => simpa [Newest, hc] using hn
  | some e =>
    rw [hc] at hn
    obtain ⟨hmem, -⟩ := hn
    simp only [reduceCtorEq, false_iff]
    exact List.ne_nil_of_mem hmem

theorem Tracks.get_eq_some_iff (h : Tracks tol s es)
    (hn : (es.filterMap StoreEvent.offeredTicket).Nodup) (k : ThresholdKey) (e : ThresholdEntry) :
    s.get k.sample k.channel = some e ↔
      e ∈ es.filterMap (StoreEvent.entryOn k) ∧
        ∀ e' ∈ es.filterMap (StoreEvent.entryOn k), e'.generation ≤ e.generation := by
  have hnewest := h.newest k
  rw [get_eq_current]
  constructor
  · intro hc
    rw [hc] at hnewest
    exact hnewest
  · rintro ⟨hmem, hmax⟩
    cases hc : (s.stateOf k).current with
    | none =>
      rw [hc] at hnewest
      have hempty : es.filterMap (StoreEvent.entryOn k) = [] := hnewest
      rw [hempty] at hmem
      cases hmem
    | some c =>
      rw [hc] at hnewest
      obtain ⟨hcmem, hcmax⟩ := hnewest
      -- both are of greatest generation, and generations are distinct
      have hgen : c.generation = e.generation :=
        Nat.le_antisymm (hmax c hcmem) (hcmax e hmem)
      rw [List.inj_on_of_nodup_map (generations_nodup hn k) hcmem hmem hgen]

theorem Tracks.commit_answer (h : Tracks tol s es) (t : RunTicket) (value : Float) (origin : String)
    (hv : Binary64.isFinite value = true) :
    (es.filterMap (StoreEvent.entryOn t.key) = [] ∧
        ∃ s', s.commit t value origin = .ok (.inserted, s')) ∨
      (∃ cur, s.get t.key.sample t.key.channel = some cur ∧
        (∃ e ∈ es.filterMap (StoreEvent.entryOn t.key), t.generation < e.generation) ∧
        s.commit t value origin = .ok (.stale cur value, s)) ∨
      (∃ cur, s.get t.key.sample t.key.channel = some cur ∧
        (∀ e ∈ es.filterMap (StoreEvent.entryOn t.key), e.generation ≤ t.generation) ∧
        ∃ s', s.commit t value origin =
          .ok (.replaced cur (Binary64.abs (value - cur.value))
            (Binary64.abs (value - cur.value) > tol), s')) := by
  have hnewest := h.newest t.key
  rw [commit_of_finite hv, get_eq_current]
  cases hc : (s.stateOf t.key).current with
  | none =>
    rw [hc] at hnewest
    exact Or.inl ⟨hnewest, _, rfl⟩
  | some cur =>
    rw [hc] at hnewest
    obtain ⟨hmem, hmax⟩ := hnewest
    by_cases hgt : cur.generation > t.generation
    · -- the stored entry is written back, which leaves the store unchanged
      have hsame : s.setState t.key { s.stateOf t.key with current := some cur } = s := by
        have hks : { s.stateOf t.key with current := some cur } = s.stateOf t.key := by
          rw [← hc]
        rw [hks, setState_stateOf hc]
      refine Or.inr (Or.inl ⟨cur, rfl, ⟨cur, hmem, hgt⟩, ?_⟩)
      simp only [settle, hgt, if_true, hsame]
    · refine Or.inr (Or.inr ⟨cur, rfl, fun e he => ?_, ?_⟩)
      · have := hmax e he
        omega
      · simp [settle, hgt, h.tolerance]

end Conclusions

/-- What a run on a new store promises once no ticket is committed twice: the tickets of each
key are numbered 1, 2, 3, ... in issue order; a key holds nothing exactly when no finite value
was committed on it, and otherwise holds the committed value of greatest generation, so its
entry depends only on the set of commits and not on their order; and a further commit
inserts, goes stale or replaces according to the values committed before it on its key. -/
structure RunOrdering (tol : Float) (s : ThresholdStore) (es : List StoreEvent) : Prop where
  numbered : ∀ k, (es.filterMap (StoreEvent.ticketOn k)).map (·.generation) =
    List.range' 1 (es.filterMap (StoreEvent.ticketOn k)).length
  get_eq_none_iff : ∀ k, s.get k.sample k.channel = none ↔ es.filterMap (StoreEvent.entryOn k) = []
  get_eq_some_iff : ∀ k e, s.get k.sample k.channel = some e ↔
    e ∈ es.filterMap (StoreEvent.entryOn k) ∧
      ∀ e' ∈ es.filterMap (StoreEvent.entryOn k), e'.generation ≤ e.generation
  order_free : ∀ calls' : List StoreCall,
    (((empty tol).exec calls').2.filterMap StoreEvent.offeredTicket).Nodup →
    ∀ k, (((empty tol).exec calls').2.filterMap (StoreEvent.entryOn k)).Perm
        (es.filterMap (StoreEvent.entryOn k)) →
      ((empty tol).exec calls').1.get k.sample k.channel = s.get k.sample k.channel
  commit_answer : ∀ t value origin, Binary64.isFinite value = true →
    (es.filterMap (StoreEvent.entryOn t.key) = [] ∧
        ∃ s', s.commit t value origin = .ok (.inserted, s')) ∨
      (∃ cur, s.get t.key.sample t.key.channel = some cur ∧
        (∃ e ∈ es.filterMap (StoreEvent.entryOn t.key), t.generation < e.generation) ∧
        s.commit t value origin = .ok (.stale cur value, s)) ∨
      (∃ cur, s.get t.key.sample t.key.channel = some cur ∧
        (∀ e ∈ es.filterMap (StoreEvent.entryOn t.key), e.generation ≤ t.generation) ∧
        ∃ s', s.commit t value origin =
          .ok (.replaced cur (Binary64.abs (value - cur.value))
            (Binary64.abs (value - cur.value) > tol), s'))

/-- The run-ordering law of the threshold store, for every sequence of calls on a new store in
which no ticket is committed twice. -/
theorem runs_keep_newest_commit (tol : Float) (calls : List StoreCall)
    (hn : (((empty tol).exec calls).2.filterMap StoreEvent.offeredTicket).Nodup) :
    RunOrdering tol ((empty tol).exec calls).1 ((empty tol).exec calls).2 := by
  have h := tracks_exec_empty tol calls
  refine ⟨h.numbered, h.get_eq_none_iff, h.get_eq_some_iff hn, ?_, h.commit_answer⟩
  intro calls' hn' k hperm
  have h' := tracks_exec_empty tol calls'
  -- both entries are characterised by the same committed values
  apply Option.ext
  intro e
  rw [h'.get_eq_some_iff hn' k e, h.get_eq_some_iff hn k e]
  simp only [hperm.mem_iff]

/-- Two runs begun on one key and committed newest first: the older commit goes stale. -/
theorem two_runs_committed_newest_first :
    let calls : List StoreCall := [.beginRun "WCM1" "CD15", .beginRun "WCM1" "CD15",
      .commit ⟨⟨"WCM1", "CD15"⟩, 2⟩ 29 "newer", .commit ⟨⟨"WCM1", "CD15"⟩, 1⟩ 31 "older"]
    (((empty 1e-6).exec calls).2.filterMap StoreEvent.offeredTicket).Nodup ∧
      RunOrdering 1e-6 ((empty 1e-6).exec calls).1 ((empty 1e-6).exec calls).2 := by
  intro calls
  have hn : (((empty 1e-6).exec calls).2.filterMap StoreEvent.offeredTicket).Nodup := by
    simp only [calls, exec, perform]
    -- the tickets offered do not depend on what the commits answered
    split <;> split <;> simp [List.filterMap_cons, StoreEvent.offeredTicket]
  exact ⟨hn, runs_keep_newest_commit 1e-6 calls hn⟩

end ThresholdStore
end Phenotyping
