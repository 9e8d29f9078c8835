import Phenotyping.Proofs.MaskBits
/-! # Criterion names read back

A criterion's name lists its positive channels with `+`, then its negative channels with `-`,
each side in natural order, joined by single spaces; the empty criterion is `all cells`. When
no channel name holds a space, the name can be read back: split at the spaces, the tokens
ending in `+` are the positive channels and those ending in `-` the negative ones. Since
the sides of a criterion built from lists are strictly ascending, two such criteria with one
name are equal, so a derived feature id names one criterion. Of natural order the argument uses
only that sorting permutes each side (`eq_of_mergeSort_eq` holds for every sort order), so it
does not depend on how natural order compares names.

The name does not escape anything: a space inside a channel name makes the tokens ambiguous,
and `a+ b-` names both `a` positive with `b` negative and `a+ b` negative alone.
-/
namespace Phenotyping.Criterion
set_option autoImplicit false

/-- The tokens of a name: each positive channel with `+`, then each negative channel with
`-`, each side in natural order. -/
def signedTokens (c : Criterion) : List String :=
  (c.positive.mergeSort naturalLe).map (· ++ "+") ++ (c.negative.mergeSort naturalLe).map (· ++ "-")

def SpaceFree (c : Criterion) : Prop := ∀ x ∈ c.positive ++ c.negative, ' ' ∉ x.toList

theorem canonicalName_eq (c : Criterion) :
    c.canonicalName = if c.isEmpty then "all cells" else " ".intercalate c.signedTokens := rfl

theorem mem_signedTokens {c : Criterion} {t : String} :
    t ∈ c.signedTokens ↔ (∃ x ∈ c.positive, x ++ "+" = t) ∨ ∃ x ∈ c.negative, x ++ "-" = t := by
  simp [signedTokens]

theorem signedTokens_ne_nil {c : Criterion} (h : c.isEmpty = false) : c.signedTokens ≠ [] := by
  intro hnil
  have hlen := congrArg List.length hnil
  simp only [signedTokens, List.length_append, List.length_map, List.length_mergeSort,
    List.length_nil, Nat.add_eq_zero_iff, List.length_eq_zero_iff] at hlen
  simp [isEmpty, hlen] at h

theorem append_plus_ne_append_minus (x y : String) : x ++ "+" ≠ y ++ "-" := by
  intro h
  have := congrArg (fun s => s.toList.getLast?) h
  simp at this

theorem space_not_mem_signedTokens {c : Criterion} (hc : c.SpaceFree) :
    ∀ t ∈ c.signedTokens, ' ' ∉ t.toList := by
  intro t ht
  rcases mem_signedTokens.mp ht with ⟨x, hx, rfl⟩ | ⟨x, hx, rfl⟩
  · simpa using hc x (List.mem_append_left _ hx)
  · simpa using hc x (List.mem_append_right _ hx)

theorem intercalate_space_inj {ts us : List String} (hts : ∀ t ∈ ts, ' ' ∉ t.toList)
    (hus : ∀ u ∈ us, ' ' ∉ u.toList) (hts₀ : ts ≠ []) (hus₀ : us ≠ [])
    (h : " ".intercalate ts = " ".intercalate us) : ts = us := by
  have hsplit : ∀ vs : List String, (∀ v ∈ vs, ' ' ∉ v.toList) → vs ≠ [] →
      (" ".intercalate vs).toList.splitOn ' ' = vs.map String.toList := by
    intro vs hvs hne
    rw [String.toList_intercalate, show " ".toList = [' '] from rfl]
    exact List.splitOn_intercalate ' ' (by simpa using hvs) (by simpa using hne)
  have hmap : ts.map String.toList = us.map String.toList := by
    rw [← hsplit ts hts hts₀, ← hsplit us hus hus₀, h]
  exact List.map_injective_iff.mpr (fun _ _ => String.toList_injective) hmap

theorem signed_append_inj {p₁ p₂ n₁ n₂ : List String}
    (h : p₁.map (· ++ "+") ++ n₁.map (· ++ "-") = p₂.map (· ++ "+") ++ n₂.map (· ++ "-")) :
    p₁ = p₂ ∧ n₁ = n₂ := by
  induction p₁ generalizing p₂ with
  | nil =>
    cases p₂ with
    | nil => exact ⟨rfl, List.map_injective_iff.mpr (fun _ _ => (String.append_left_inj "-").mp) h⟩
    | cons y ys =>
      -- the right side starts with a positive token, the left side cannot
      cases n₁ with
      | nil => simp at h
      | cons x xs =>
        simp only [List.map_nil, List.nil_append, List.map_cons, List.cons_append,
          List.cons.injEq] at h
        exact absurd h.1.symm (append_plus_ne_append_minus y x)
  | cons x xs ih =>
    cases p₂ with
    | nil =>
      cases n₂ with
      | nil => simp at h
      | cons y ys =>
        simp only [List.map_nil, List.nil_append, List.map_cons, List.cons_append,
          List.cons.injEq] at h
        exact absurd h.1 (append_plus_ne_append_minus x y)
    | cons y ys =>
      simp only [List.map_cons, List.cons_append, List.cons.injEq, String.append_left_inj] at h
      obtain ⟨rfl, htail⟩ := h
      obtain ⟨hp, hn⟩ := ih htail
      exact ⟨congrArg (x :: ·) hp, hn⟩

/-- Strictly ascending lists that sort to the same list are equal, whatever the sort order:
sorting only permutes. -/
theorem eq_of_mergeSort_eq {l₁ l₂ : List String} {le : String → String → Bool}
    (h₁ : l₁.Pairwise (· < ·)) (h₂ : l₂.Pairwise (· < ·)) (h : l₁.mergeSort le = l₂.mergeSort le) :
    l₁ = l₂ := by
  have hperm : l₁.Perm l₂ :=
    (List.mergeSort_perm l₁ le).symm.trans (h ▸ List.mergeSort_perm l₂ le)
  exact hperm.eq_of_pairwise (fun a _ _ _ hab hba => absurd (lt_trans hab hba) (lt_irrefl a)) h₁ h₂

theorem intercalate_signedTokens_ne_allCells {c : Criterion} (hc : c.SpaceFree)
    (hne : c.isEmpty = false) : " ".intercalate c.signedTokens ≠ "all cells" := by
  intro h
  have htokens : c.signedTokens = ["all", "cells"] := by
    refine intercalate_space_inj (space_not_mem_signedTokens hc) (by decide) (signedTokens_ne_nil hne)
      (by simp) ?_
    rw [h]
    decide
  have hall : "all" ∈ c.signedTokens := by simp [htokens]
  rcases mem_signedTokens.mp hall with ⟨x, -, hx⟩ | ⟨x, -, hx⟩
  all_goals
    have := congrArg (fun s => s.toList.getLast?) hx
    simp at this

/-- Two criteria with strictly ascending sides and no space in a channel name, named alike,
are equal. -/
theorem eq_of_canonicalName_eq {c₁ c₂ : Criterion}
    (hs₁ : c₁.positive.Pairwise (· < ·) ∧ c₁.negative.Pairwise (· < ·))
    (hs₂ : c₂.positive.Pairwise (· < ·) ∧ c₂.negative.Pairwise (· < ·))
    (hc₁ : c₁.SpaceFree) (hc₂ : c₂.SpaceFree) (h : c₁.canonicalName = c₂.canonicalName) :
    c₁ = c₂ := by
  rw [canonicalName_eq, canonicalName_eq] at h
  cases he₁ : c₁.isEmpty <;> cases he₂ : c₂.isEmpty <;> simp only [he₁, he₂] at h
  case false.false =>
    have htokens := intercalate_space_inj (space_not_mem_signedTokens hc₁)
      (space_not_mem_signedTokens hc₂) (signedTokens_ne_nil he₁) (signedTokens_ne_nil he₂) h
    obtain ⟨hpos, hneg⟩ := signed_append_inj htokens
    cases c₁; cases c₂
    simp only [mk.injEq]
    exact ⟨eq_of_mergeSort_eq hs₁.1 hs₂.1 hpos, eq_of_mergeSort_eq hs₁.2 hs₂.2 hneg⟩
  case false.true => exact absurd h (intercalate_signedTokens_ne_allCells hc₁ he₁)
  case true.false => exact absurd h.symm (intercalate_signedTokens_ne_allCells hc₂ he₂)
  case true.true =>
    simp only [isEmpty, Bool.and_eq_true, List.isEmpty_iff] at he₁ he₂
    cases c₁; cases c₂
    simp_all

/-- Criteria built from channel lists with no space in a channel name have one name only if
they have the same positive and the same negative channels. -/
theorem canonicalName_ofLists_injective {pos₁ neg₁ pos₂ neg₂ : List String}
    (hspace : ∀ x ∈ pos₁ ++ neg₁ ++ pos₂ ++ neg₂, ' ' ∉ x.toList)
    (h : (ofLists pos₁ neg₁).canonicalName = (ofLists pos₂ neg₂).canonicalName) :
    ofLists pos₁ neg₁ = ofLists pos₂ neg₂ := by
  have hfree : ∀ pos neg, (∀ x ∈ pos ++ neg, ' ' ∉ x.toList) → (ofLists pos neg).SpaceFree := by
    intro pos neg hpn x hx
    simp only [ofLists, List.mem_append, mem_sortedSet] at hx
    exact hpn x (List.mem_append.mpr hx)
  refine eq_of_canonicalName_eq ⟨pairwise_sortedSet pos₁, pairwise_sortedSet neg₁⟩
    ⟨pairwise_sortedSet pos₂, pairwise_sortedSet neg₂⟩
    (hfree pos₁ neg₁ fun x hx => hspace x ?_) (hfree pos₂ neg₂ fun x hx => hspace x ?_) h
  · simp only [List.mem_append] at hx ⊢; tauto
  · simp only [List.mem_append] at hx ⊢; tauto

theorem canonicalName_ofLists_injective_reordered :
    (∀ x ∈ ["CD15", "CD20"] ++ ["CD3"] ++ ["CD20", "CD15"] ++ ["CD3"], ' ' ∉ x.toList) ∧
      (ofLists ["CD15", "CD20"] ["CD3"]).canonicalName =
        (ofLists ["CD20", "CD15"] ["CD3"]).canonicalName ∧
      ofLists ["CD15", "CD20"] ["CD3"] = ofLists ["CD20", "CD15"] ["CD3"] := by
  have h₁ : ofLists ["CD15", "CD20"] ["CD3"] = ⟨["CD15", "CD20"], ["CD3"]⟩ := by decide
  have h₂ : ofLists ["CD20", "CD15"] ["CD3"] = ⟨["CD15", "CD20"], ["CD3"]⟩ := by decide
  have hname : (ofLists ["CD15", "CD20"] ["CD3"]).canonicalName =
      (ofLists ["CD20", "CD15"] ["CD3"]).canonicalName := by rw [h₁, h₂]
  exact ⟨by decide, hname, canonicalName_ofLists_injective (by decide) hname⟩

/-- A channel name holding a space lets two criteria share a name: `a` positive with `b`
negative, and `a+ b` negative alone, are both named `a+ b-`. -/
theorem canonicalName_spaced_channel_collides :
    (ofLists ["a"] ["b"]).canonicalName = (ofLists [] ["a+ b"]).canonicalName ∧
      ofLists ["a"] ["b"] ≠ ofLists [] ["a+ b"] := by
  refine ⟨?_, by decide⟩
  have h₁ : ofLists ["a"] ["b"] = ⟨["a"], ["b"]⟩ := rfl
  have h₂ : ofLists [] ["a+ b"] = ⟨[], ["a+ b"]⟩ := rfl
  rw [h₁, h₂, canonicalName_eq, canonicalName_eq]
  simp only [signedTokens, List.mergeSort_singleton, List.mergeSort_nil]
  decide

end Phenotyping.Criterion
