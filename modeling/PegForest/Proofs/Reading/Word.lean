import PegForest.Proofs.Reading.Recall
import PegForest.Proofs.Reading.Search

/-!
# Words of a window

What a reading finds from a place on are the atoms between that place and the limit.  A word whose
atoms the order takes for nothing else is matched exactly where these begin with it, a run of such
an atom is taken to its end, and a search for the word stops where it stands for the first time.
-/

set_option autoImplicit false

namespace PegForest

variable {α τ : Type} {order : Comparator α} {window : Window α} {cursor : Nat}
  {front back word : List α}

/-- The order takes no other atom for this one. -/
def Comparator.Discerns (order : Comparator α) (atom : α) : Prop :=
  ∀ a, order.same a atom = true ↔ a = atom

/-! ## First occurrences -/

/-- The word stands behind the front and nowhere before. -/
def ClosedBy (word front : List α) : Prop :=
  ∀ k < front.length, ¬word <+: (front ++ word).drop k

instance [DecidableEq α] (word front : List α) : Decidable (ClosedBy word front) :=
  inferInstanceAs (Decidable (∀ k < front.length, ¬word <+: (front ++ word).drop k))

theorem ClosedBy.first (closed : ClosedBy word front) (back : List α) :
    ∀ k < front.length, ¬word <+: (front ++ (word ++ back)).drop k := by
  intro k small here
  apply closed k small
  rw [← List.append_assoc, List.drop_append_of_le_length (by rw [List.length_append]; omega)] at here
  apply List.prefix_of_prefix_length_le here (List.prefix_append _ _)
  rw [List.length_drop, List.length_append]
  omega

theorem exists_closedBy {atoms : List α} (occurs : word <:+: atoms) :
    ∃ front back, atoms = front ++ (word ++ back) ∧ ClosedBy word front := by
  classical
  have somewhere : ∃ k, word <+: atoms.drop k := by
    obtain ⟨front, back, rfl⟩ := occurs
    refine ⟨front.length, ?_⟩
    rw [List.append_assoc, List.drop_left]
    exact List.prefix_append _ _
  obtain ⟨back, here⟩ := Nat.find_spec somewhere
  refine ⟨atoms.take (Nat.find somewhere), back, ?_, ?_⟩
  · rw [here, List.take_append_drop]
  · intro k small early
    have shorter : k < Nat.find somewhere := by
      rw [List.length_take] at small
      omega
    apply Nat.find_min somewhere shorter
    have whole : atoms.take (Nat.find somewhere) ++ word <+: atoms := by
      refine ⟨back, ?_⟩
      rw [List.append_assoc, here, List.take_append_drop]
    exact early.trans (whole.drop k)

/-! ## Atoms ahead -/

namespace Window

def ahead (window : Window α) (cursor : Nat) : List α :=
  (window.source.extract cursor window.limit).toList

theorem peek?_ahead (window : Window α) (cursor j : Nat) :
    window.peek? (cursor + j) = (window.ahead cursor)[j]? := by
  rw [ahead, Array.getElem?_toList, Array.getElem?_extract, peek?]
  by_cases below : cursor + j < window.limit
  · rw [if_pos below]
    split
    · rfl
    · rw [Array.getElem?_eq_none (by omega)]
  · rw [if_neg below, if_neg (by omega)]

theorem ahead_add (window : Window α) (cursor count : Nat) :
    window.ahead (cursor + count) = (window.ahead cursor).drop count := by
  apply List.ext_getElem?
  intro j
  rw [← peek?_ahead, List.getElem?_drop, ← peek?_ahead, Nat.add_assoc]

theorem ahead_of_append (spelled : window.ahead cursor = front ++ back) :
    window.ahead (cursor + front.length) = back := by
  rw [ahead_add, spelled, List.drop_left]

theorem length_ahead (window : Window α) (cursor : Nat) :
    (window.ahead cursor).length = min window.limit window.source.size - cursor := by
  rw [ahead, Array.length_toList, Array.size_extract]

theorem left_ahead (inside : window.limit ≤ window.source.size) (cursor : Nat) :
    window.left cursor = (window.ahead cursor).length := by
  rw [length_ahead, Nat.min_eq_left inside, left]

theorem extract_of_ahead (spelled : window.ahead cursor = front ++ back) :
    (window.source.extract cursor (cursor + front.length)).toList = front := by
  have length := congrArg List.length spelled
  rw [length_ahead, List.length_append] at length
  apply List.ext_getElem?
  intro j
  have same := congrArg (fun atoms => atoms[j]?) spelled
  simp only [ahead, Array.getElem?_toList, Array.getElem?_extract] at same ⊢
  by_cases small : j < front.length
  · rw [List.getElem?_append_left small, if_pos (by omega)] at same
    rw [if_pos (by omega), same]
  · rw [if_neg (by omega), List.getElem?_eq_none (by omega)]

theorem fits_ahead (discerns : ∀ atom ∈ word, order.Discerns atom) {j : Nat}
    (small : j < word.length) :
    window.Fits order cursor word j ↔ word[j]? = (window.ahead cursor)[j]? := by
  unfold Fits
  rw [peek?_ahead, List.getElem?_eq_getElem small]
  constructor
  · intro ⟨a, expected, peeked, here, same⟩
    cases here
    rw [peeked, (discerns _ (List.getElem_mem small) a).mp same]
  · intro peeked
    exact ⟨_, _, peeked.symm, rfl, (discerns _ (List.getElem_mem small) _).mpr rfl⟩

end Window

namespace Reading

variable {refs : List Backref}

/-- A word is matched where the atoms ahead begin with it, and nowhere else. -/
theorem word_cases (discerns : ∀ atom ∈ word, order.Discerns atom) (window : Window α) (cursor : Nat)
    (refs : List Backref) :
    word <+: window.ahead cursor ∧ (literal order window word : Reading τ) refs cursor =
        .ok (.matched (cursor + word.length) [] []) ∨
      ¬word <+: window.ahead cursor ∧
        ∃ offset, (literal order window word : Reading τ) refs cursor = .ok (.failed offset) := by
  rcases literal_outcome order window word cursor refs with
    ⟨agree, read⟩ | ⟨j, small, differs, -, read⟩
  · left
    refine ⟨List.prefix_iff_getElem?.mpr fun j small => ?_, read⟩
    rw [← (Window.fits_ahead discerns small).mp (agree j small), List.getElem?_eq_getElem small]
  · right
    refine ⟨fun begins => differs ((Window.fits_ahead discerns small).mpr ?_), _, read⟩
    rw [List.prefix_iff_getElem?.mp begins j small, List.getElem?_eq_getElem small]

theorem word_matched (discerns : ∀ atom ∈ word, order.Discerns atom)
    (spelled : window.ahead cursor = word ++ back) (refs : List Backref) :
    (literal order window word : Reading τ) refs cursor =
      .ok (.matched (cursor + word.length) [] []) := by
  rcases word_cases discerns window cursor refs with ⟨-, read⟩ | ⟨absent, -⟩
  · exact read
  · exact absurd ⟨back, spelled.symm⟩ absent

theorem word_missing (discerns : ∀ atom ∈ word, order.Discerns atom)
    (absent : ¬word <+: window.ahead cursor) (refs : List Backref) :
    ∃ offset, (literal order window word : Reading τ) refs cursor = .ok (.failed offset) := by
  rcases word_cases discerns window cursor refs with ⟨begins, -⟩ | ⟨-, read⟩
  · exact absurd begins absent
  · exact read

/-! ## Runs -/

theorem exists_run [DecidableEq α] (atom : α) (atoms : List α) :
    ∃ n back, atoms = List.replicate n atom ++ back ∧ ¬[atom] <+: back := by
  induction atoms with
  | nil => exact ⟨0, [], rfl, by simp⟩
  | cons a rest ih =>
      by_cases same : a = atom
      · obtain ⟨n, back, rfl, ended⟩ := ih
        exact ⟨n + 1, back, by rw [same, List.replicate_succ, List.cons_append], ended⟩
      · exact ⟨0, a :: rest, rfl, by simpa using Ne.symm same⟩

theorem greedy_run {atom : α} (discerns : order.Discerns atom) {last : Reading τ} {n rounds : Nat}
    (spelled : window.ahead cursor = List.replicate n atom ++ back) (ended : ¬[atom] <+: back)
    (enough : n < rounds) (refs : List Backref) :
    (literal order window [atom] : Reading τ).greedy last rounds refs cursor =
      .ok (.matched (cursor + n) [] []) := by
  have alone : ∀ a ∈ [atom], order.Discerns a := List.forall_mem_singleton.mpr discerns
  induction n generalizing cursor rounds with
  | zero =>
      obtain ⟨rounds, rfl⟩ := Nat.exists_eq_add_one_of_ne_zero (Nat.ne_zero_of_lt enough)
      obtain ⟨offset, missing⟩ := word_missing (τ := τ) alone (by rwa [spelled]) refs
      exact greedy_of_failed missing
  | succ n ih =>
      obtain ⟨rounds, rfl⟩ := Nat.exists_eq_add_one_of_ne_zero (Nat.ne_zero_of_lt enough)
      rw [List.replicate_succ, List.cons_append, ← List.singleton_append] at spelled
      have found := word_matched (τ := τ) alone spelled refs
      have later := ih (Window.ahead_of_append spelled) (Nat.lt_of_succ_lt_succ enough)
      rw [greedy_of_moved found (Nat.succ_ne_self cursor), resume_nil, later,
        List.length_singleton, Nat.add_assoc, Nat.add_comm 1]

/-! ## Searches -/

section Search

variable {reading : Reading τ} (discerns : ∀ atom ∈ word, order.Discerns atom)
  (finds : ∀ cursor, reading refs cursor = literal order window word refs cursor)

include discerns finds

/-- A search for a word stops where it stands for the first time. -/
theorem upTo_word (spelled : window.ahead cursor = front ++ (word ++ back))
    (first : ∀ k < front.length, ¬word <+: (front ++ (word ++ back)).drop k) {left : Nat}
    (enough : front.length ≤ left) :
    reading.upTo left refs cursor = .ok (.matched (cursor + front.length) [] []) := by
  induction front generalizing cursor left with
  | nil => exact upTo_of_matched ((finds cursor).trans (word_matched discerns spelled refs)) left
  | cons a front ih =>
      obtain ⟨left, rfl⟩ := Nat.exists_eq_add_one_of_ne_zero (Nat.ne_zero_of_lt enough)
      have absent : ¬word <+: window.ahead cursor := by
        rw [spelled]
        exact first 0 (Nat.succ_pos _)
      obtain ⟨offset, missing⟩ := word_missing (τ := τ) discerns absent refs
      have beyond : window.ahead (cursor + 1) = front ++ (word ++ back) := by
        rw [Window.ahead_add, spelled]
        rfl
      have later := ih beyond (fun k small => first (k + 1) (Nat.succ_lt_succ small))
        (Nat.le_of_succ_le_succ enough)
      rw [upTo_of_failed ((finds cursor).trans missing), later, List.length_cons, Nat.add_assoc,
        Nat.add_comm 1]

theorem upTo_absent (never : ¬word <:+: window.ahead cursor) (left : Nat) :
    ∃ offset, reading.upTo left refs cursor = .ok (.failed offset) := by
  induction left generalizing cursor with
  | zero =>
      obtain ⟨offset, missing⟩ := word_missing (τ := τ) discerns
        (fun begins => never begins.isInfix) refs
      have failed := (finds cursor).trans missing
      exact ⟨cursor, by simp only [upTo, failed, Fault.ok_bind, Fault.pure_eq_ok]⟩
  | succ left ih =>
      obtain ⟨offset, missing⟩ := word_missing (τ := τ) discerns
        (fun begins => never begins.isInfix) refs
      rw [upTo_of_failed ((finds cursor).trans missing)]
      apply ih
      rw [Window.ahead_add]
      exact fun inside => never (inside.trans (List.drop_suffix 1 _).isInfix)

end Search

end Reading

end PegForest
