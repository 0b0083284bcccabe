import Mathlib.Tactic.Common
import Mathlib.Algebra.Order.Ring.Nat
import Mathlib.Data.List.GetD
import Mathlib.Data.List.Perm.Basic
import Mathlib.Data.List.Nodup
import Mathlib.Logic.Function.Basic

/-!
# Tables of chains

A table is a list of chains, and `place` says of an element in which chain it belongs. An element
is pushed to the front of its chain, taken out of it, or carried over to another table. Up to their
order the elements of the table change by that element alone.

A list of elements with keys and values lists a partial function when no key occurs twice and the
values are those of the function. Which function it lists does not depend on the order.
-/

namespace Chains

variable {ε ν α : Type*}

/-! ### Chains -/

/-- The chain at a position, which is empty behind the end of the table. -/
def chain (t : List (List ε)) (i : Nat) : List ε := t.getD i []

/-- Every element is in the chain it belongs to. -/
def Placed (place : ε → Nat) (t : List (List ε)) : Prop :=
  ∀ i, ∀ e ∈ chain t i, place e = i

/-- The element in front of the chain it belongs to. -/
def push (place : ε → Nat) (t : List (List ε)) (e : ε) : List (List ε) :=
  t.modify (place e) (e :: ·)

/-- The elements of `t`, chain by chain from the front, pushed to the table `t'`. -/
def transfer (place : ε → Nat) (t t' : List (List ε)) : List (List ε) :=
  t.foldl (fun t' c => c.foldl (push place) t') t'

theorem mem_flatten {t : List (List ε)} {e : ε} :
  e ∈ t.flatten ↔ ∃ i, e ∈ chain t i
  := by
  rw [List.mem_flatten]
  constructor
  · rintro ⟨c, hc, he⟩
    obtain ⟨i, hi, rfl⟩ := List.mem_iff_getElem.mp hc
    use i
    rwa [chain, List.getD_eq_getElem _ _ hi]
  · rintro ⟨i, he⟩
    by_cases hi : i < t.length
    · rw [chain, List.getD_eq_getElem _ _ hi] at he
      exact ⟨_, List.getElem_mem hi, he⟩
    · rw [chain, List.getD_eq_default _ _ (by omega)] at he
      cases he

theorem chain_modify {t : List (List ε)} {i : Nat} {f : List ε → List ε} (hi : i < t.length)
    (j : Nat) :
  chain (t.modify i f) j = if i = j then f (chain t j) else chain t j
  := by
  rw [chain, chain, List.getD_eq_getElem?_getD, List.getD_eq_getElem?_getD,
    List.getElem?_modify]
  by_cases hij : i = j
  · subst hij
    simp [List.getElem?_eq_getElem hi]
  · simp [hij]

/-- The elements after a change of one chain, up to their order. -/
theorem flatten_modify {t : List (List ε)} {i : Nat} (f : List ε → List ε) (hi : i < t.length) :
  ((t.modify i f).flatten).Perm (f (chain t i) ++ (t.eraseIdx i).flatten)
  := by
  induction t generalizing i with
  | nil => cases hi
  | cons c t ih =>
      cases i with
      | zero => exact List.Perm.refl _
      | succ i =>
          rw [List.modify_succ_cons, List.flatten_cons, List.eraseIdx_cons_succ,
            List.flatten_cons]
          have hperm := ih (Nat.lt_of_succ_lt_succ hi)
          rw [show chain (c :: t) (i + 1) = chain t i from rfl]
          apply (hperm.append_left c).trans
          rw [← List.append_assoc, ← List.append_assoc]
          apply List.perm_append_comm.append_right

/-- One chain and the elements of the other ones. -/
theorem flatten_perm {t : List (List ε)} {i : Nat} (hi : i < t.length) :
  (t.flatten).Perm (chain t i ++ (t.eraseIdx i).flatten)
  := by
  have h := flatten_modify id hi
  rwa [List.modify_id] at h

/-- In a table whose elements are placed, an element is looked for in its chain. -/
theorem Placed.mem_flatten {place : ε → Nat} {t : List (List ε)} (h : Placed place t) {e : ε} :
  e ∈ t.flatten ↔ e ∈ chain t (place e)
  := by
  rw [Chains.mem_flatten]
  constructor
  · rintro ⟨i, he⟩
    rwa [h i e he]
  · intro he
    exact ⟨_, he⟩

theorem placed_replicate (place : ε → Nat) (n : Nat) :
  Placed place (List.replicate n [])
  := by
  intro i e he
  have hmem := Chains.mem_flatten.mpr ⟨i, he⟩
  rw [List.flatten_replicate_nil] at hmem
  cases hmem

/-! ### The push and the transfer -/

@[simp]
theorem length_push (place : ε → Nat) (t : List (List ε)) (e : ε) :
  (push place t e).length = t.length
  := List.length_modify ..

theorem flatten_push {place : ε → Nat} {t : List (List ε)} {e : ε} (h : place e < t.length) :
  ((push place t e).flatten).Perm (e :: t.flatten)
  := (flatten_modify _ h).trans ((flatten_perm h).symm.cons e)

theorem Placed.push {place : ε → Nat} {t : List (List ε)} (h : Placed place t) {e : ε}
    (he : place e < t.length) :
  Placed place (Chains.push place t e)
  := by
  intro i e' he'
  rw [Chains.push, chain_modify he] at he'
  by_cases hi : place e = i
  · rw [if_pos hi, List.mem_cons] at he'
    rcases he' with rfl | he'
    · apply hi
    · apply h i e' he'
  · rw [if_neg hi] at he'
    apply h i e' he'

/-- Elements pushed one after the other. -/
theorem foldl_push {place : ε → Nat} {t : List (List ε)} (c : List ε) (h : Placed place t)
    (hc : ∀ e, place e < t.length) :
  (c.foldl (push place) t).length = t.length ∧ Placed place (c.foldl (push place) t) ∧
    ((c.foldl (push place) t).flatten).Perm (c ++ t.flatten)
  := by
  induction c generalizing t with
  | nil => exact ⟨rfl, h, List.Perm.refl _⟩
  | cons e c ih =>
      obtain ⟨hlength, hplaced, hperm⟩ := ih (h.push (hc e)) (by simpa using hc)
      rw [List.foldl_cons]
      refine ⟨by rw [hlength, length_push], hplaced, hperm.trans ?_⟩
      apply ((flatten_push (hc e)).append_left c).trans
      apply List.perm_middle

/-- A transfer to a table places every element anew and loses none. -/
theorem transfer_spec {place : ε → Nat} {t' : List (List ε)} (t : List (List ε))
    (h : Placed place t') (ht : ∀ e, place e < t'.length) :
  (transfer place t t').length = t'.length ∧ Placed place (transfer place t t') ∧
    ((transfer place t t').flatten).Perm (t.flatten ++ t'.flatten)
  := by
  induction t generalizing t' with
  | nil => exact ⟨rfl, h, List.Perm.refl _⟩
  | cons c t ih =>
      obtain ⟨hclength, hcplaced, hcperm⟩ := foldl_push c h ht
      obtain ⟨hlength, hplaced, hperm⟩ := ih hcplaced (by rwa [hclength])
      rw [transfer, List.foldl_cons]
      rw [transfer] at hlength hplaced hperm
      refine ⟨by rw [hlength, hclength], hplaced, hperm.trans ?_⟩
      apply (hcperm.append_left t.flatten).trans
      rw [List.flatten_cons, ← List.append_assoc]
      apply List.perm_append_comm.append_right

/-- Elements pushed one after the other come to stand in front of their chain in reversed order. -/
theorem chain_foldl_push {place : ε → Nat} {t : List (List ε)} (c : List ε)
    (hc : ∀ e, place e < t.length) (i : Nat) :
  chain (c.foldl (push place) t) i = (c.filter (place · = i)).reverse ++ chain t i
  := by
  induction c generalizing t with
  | nil => rfl
  | cons e c ih =>
      rw [List.foldl_cons, ih (by simpa using hc), push, chain_modify (hc e)]
      by_cases hi : place e = i
      · rw [if_pos hi, List.filter_cons_of_pos (by simpa using hi), List.reverse_cons,
          List.append_assoc]
        rfl
      · rw [if_neg hi, List.filter_cons_of_neg (by simpa using hi)]

/-- A transfer reverses the order of the elements that come into one chain. -/
theorem chain_transfer {place : ε → Nat} {t' : List (List ε)} (t : List (List ε))
    (ht : ∀ e, place e < t'.length) (i : Nat) :
  chain (transfer place t t') i = (t.flatten.filter (place · = i)).reverse ++ chain t' i
  := by
  induction t generalizing t' with
  | nil => rfl
  | cons c t ih =>
      have hlength : ∀ e, place e < (c.foldl (push place) t').length := by
        have hfoldl : (c.foldl (push place) t').length = t'.length := by
          clear ht ih
          induction c generalizing t' with
          | nil => rfl
          | cons e c ih => rw [List.foldl_cons, ih, length_push]
        rwa [hfoldl]
      have hrest := ih hlength
      rw [transfer] at hrest
      rw [transfer, List.foldl_cons, hrest, chain_foldl_push c ht, List.flatten_cons,
        List.filter_append, List.reverse_append, List.append_assoc]

/-- Elements that belong in one chain are found there, in their order. -/
theorem filter_flatten {place : ε → Nat} {t : List (List ε)} (h : Placed place t) {p : ε → Bool}
    {i : Nat} (hp : ∀ e ∈ t.flatten, p e = true → place e = i) :
  t.flatten.filter p = (chain t i).filter p
  := by
  have hnone : ∀ c ∈ t, ∀ j, chain t j = c → j ≠ i → c.filter p = [] := by
    intro c hc j hj hne
    rw [List.filter_eq_nil_iff]
    intro e he hpe
    apply hne
    rw [← hj] at he
    rw [← h j e he]
    apply hp e (Chains.mem_flatten.mpr ⟨j, he⟩) hpe
  by_cases hi : i < t.length
  · have hchain : chain t i = t[i] := List.getD_eq_getElem _ _ hi
    have hsplit : t = t.take i ++ t[i] :: t.drop (i + 1) := by
      rw [List.getElem_cons_drop, List.take_append_drop]
    have hempty : ∀ s : List (List ε), (∀ c ∈ s, c.filter p = []) → s.flatten.filter p = [] := by
      intro s hs
      rw [List.filter_flatten, List.flatten_eq_nil_iff]
      intro c hc
      obtain ⟨c', hc', rfl⟩ := List.mem_map.mp hc
      apply hs c' hc'
    have hbefore : (t.take i).flatten.filter p = [] := by
      apply hempty
      intro c hc
      obtain ⟨j, hj, rfl⟩ := List.mem_iff_getElem.mp hc
      rw [List.length_take] at hj
      apply hnone _ (List.mem_of_mem_take hc) j
      · rw [List.getElem_take]
        exact List.getD_eq_getElem _ _ (by omega)
      · omega
    have hafter : (t.drop (i + 1)).flatten.filter p = [] := by
      apply hempty
      intro c hc
      obtain ⟨j, hj, rfl⟩ := List.mem_iff_getElem.mp hc
      rw [List.length_drop] at hj
      apply hnone _ (List.mem_of_mem_drop hc) (i + 1 + j)
      · rw [List.getElem_drop]
        exact List.getD_eq_getElem _ _ (by omega)
      · omega
    rw [hchain]
    conv_lhs => rw [hsplit]
    rw [List.flatten_append, List.filter_append, hbefore, List.nil_append, List.flatten_cons,
      List.filter_append, hafter, List.append_nil]
  · have hchain : chain t i = [] := List.getD_eq_default _ _ (by omega)
    rw [hchain, List.filter_nil, List.filter_eq_nil_iff]
    intro e he hpe
    have hmem := h.mem_flatten.mp he
    rw [hp e he hpe, hchain] at hmem
    cases hmem

/-! ### The removal -/

theorem perm_cons_eraseP {p : ε → Bool} {c : List ε} {e : ε} (h : c.find? p = some e) :
  c.Perm (e :: c.eraseP p)
  := by
  induction c with
  | nil => cases h
  | cons a c ih =>
      by_cases ha : p a
      · rw [List.find?_cons_of_pos ha] at h
        obtain rfl := Option.some.inj h
        rw [List.eraseP_cons_of_pos ha]
      · rw [List.find?_cons_of_neg ha] at h
        rw [List.eraseP_cons_of_neg ha]
        apply ((ih h).cons a).trans
        apply List.Perm.swap

/-- Of the elements the one found in a chain is taken out. -/
theorem flatten_eraseP {p : ε → Bool} {t : List (List ε)} {i : Nat} {e : ε}
    (h : (chain t i).find? p = some e) :
  (t.flatten).Perm (e :: (t.modify i (·.eraseP p)).flatten)
  := by
  have hi : i < t.length := by
    by_contra hi
    rw [chain, List.getD_eq_default _ _ (by omega)] at h
    cases h
  apply (flatten_perm hi).trans
  apply ((perm_cons_eraseP h).append_right _).trans
  apply (flatten_modify (·.eraseP p) hi).symm.cons e

theorem Placed.eraseP {place : ε → Nat} {t : List (List ε)} (h : Placed place t) (i : Nat)
    (p : ε → Bool) :
  Placed place (t.modify i (·.eraseP p))
  := by
  intro j e he
  by_cases hi : i < t.length
  · rw [chain_modify hi] at he
    split at he
    · apply h j e (List.eraseP_subset he)
    · apply h j e he
  · rw [List.modify_eq_self (by omega)] at he
    apply h j e he

/-! ### The change of the elements where they are -/

theorem chain_map (g : ε → ε) (t : List (List ε)) (i : Nat) :
  chain (t.map (List.map g)) i = (chain t i).map g
  := @List.getD_map _ _ t [] i (List.map g)

theorem Placed.map {place : ε → Nat} {t : List (List ε)} (h : Placed place t) {g : ε → ε}
    (hg : ∀ e, place (g e) = place e) :
  Placed place (t.map (List.map g))
  := by
  intro i e he
  rw [chain_map] at he
  obtain ⟨e', he', rfl⟩ := List.mem_map.mp he
  rw [hg]
  apply h i e' he'

/-! ### The partial function that is listed -/

/-- No key occurs twice, and the values are those of the function. -/
structure Lists (key : ε → ν) (val : ε → α) (es : List ε) (content : ν → Option α) : Prop where
  nodup : (es.map key).Nodup
  eq_some_iff : ∀ n v, content n = some v ↔ ∃ e ∈ es, key e = n ∧ val e = v

variable {key : ε → ν} {val : ε → α} {es es' : List ε} {content : ν → Option α}

theorem lists_nil :
  Lists key val [] (fun _ => none)
  := by
  constructor
  · exact List.nodup_nil
  · simp

/-- The order does not matter. -/
theorem Lists.perm (h : Lists key val es content) (hperm : es'.Perm es) :
  Lists key val es' content
  := by
  constructor
  · exact (hperm.map key).nodup_iff.mpr h.nodup
  · intro n v
    rw [h.eq_some_iff]
    constructor
    · rintro ⟨e, he, hev⟩
      exact ⟨e, hperm.mem_iff.mpr he, hev⟩
    · rintro ⟨e, he, hev⟩
      exact ⟨e, hperm.mem_iff.mp he, hev⟩

/-- Nor do changes that keep keys and values. -/
theorem Lists.map (h : Lists key val es content) {g : ε → ε} (hkey : ∀ e, key (g e) = key e)
    (hval : ∀ e, val (g e) = val e) :
  Lists key val (es.map g) content
  := by
  constructor
  · rw [List.map_map, show key ∘ g = key from funext hkey]
    apply h.nodup
  · intro n v
    rw [h.eq_some_iff]
    constructor
    · rintro ⟨e, he, hev⟩
      use g e, List.mem_map_of_mem he
      rwa [hkey, hval]
    · rintro ⟨e, he, hev⟩
      obtain ⟨e', he', rfl⟩ := List.mem_map.mp he
      rw [hkey, hval] at hev
      exact ⟨e', he', hev⟩

theorem Lists.eq_none_iff (h : Lists key val es content) {n : ν} :
  content n = none ↔ ∀ e ∈ es, key e ≠ n
  := by
  constructor
  · intro hn e he hkey
    have hsome := (h.eq_some_iff n (val e)).mpr ⟨e, he, hkey, rfl⟩
    rw [hn] at hsome
    cases hsome
  · intro hn
    cases hv : content n with
    | none => rfl
    | some v =>
        obtain ⟨e, he, hkey, -⟩ := (h.eq_some_iff n v).mp hv
        exact absurd hkey (hn e he)

/-- An element does not matter to the values of other keys. -/
theorem exists_mem_cons_iff {e : ε} {n : ν} (hn : n ≠ key e) (v : α) :
  (∃ e' ∈ e :: es, key e' = n ∧ val e' = v) ↔ ∃ e' ∈ es, key e' = n ∧ val e' = v
  := by
  constructor
  · rintro ⟨e', he', hkey, hv⟩
    rcases List.mem_cons.mp he' with rfl | he'
    · exact absurd hkey.symm hn
    · exact ⟨e', he', hkey, hv⟩
  · rintro ⟨e', he', hkey, hv⟩
    exact ⟨e', List.mem_cons_of_mem e he', hkey, hv⟩

/-- A further element, whose key does not occur. -/
theorem Lists.cons [DecidableEq ν] (h : Lists key val es content) {e : ε}
    (he : content (key e) = none) :
  Lists key val (e :: es) (Function.update content (key e) (some (val e)))
  := by
  rw [h.eq_none_iff] at he
  constructor
  · rw [List.map_cons, List.nodup_cons]
    constructor
    · intro hmem
      obtain ⟨e', he', hkey⟩ := List.mem_map.mp hmem
      apply he e' he' hkey
    · apply h.nodup
  · intro n v
    by_cases hn : n = key e
    · subst hn
      rw [Function.update_self, Option.some.injEq]
      constructor
      · intro hv
        exact ⟨e, List.mem_cons_self, rfl, hv⟩
      · rintro ⟨e', he', hkey, hv⟩
        rcases List.mem_cons.mp he' with rfl | he'
        · apply hv
        · exact absurd hkey (he e' he')
    · rw [Function.update_of_ne hn, h.eq_some_iff, exists_mem_cons_iff hn]

/-- One element less. -/
theorem Lists.of_cons [DecidableEq ν] {e : ε} (h : Lists key val (e :: es) content) :
  Lists key val es (Function.update content (key e) none)
  := by
  have hnodup := h.nodup
  rw [List.map_cons, List.nodup_cons] at hnodup
  constructor
  · exact hnodup.2
  · intro n v
    by_cases hn : n = key e
    · subst hn
      rw [Function.update_self]
      constructor
      · intro hv
        cases hv
      · rintro ⟨e', he', hkey, -⟩
        exact absurd (List.mem_map.mpr ⟨e', he', hkey⟩) hnodup.1
    · rw [Function.update_of_ne hn, h.eq_some_iff, exists_mem_cons_iff hn]

end Chains
