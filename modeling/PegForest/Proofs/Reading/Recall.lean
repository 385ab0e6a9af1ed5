import PegForest.Proofs.Reading.Basic

/-!
# Recalled ranges

A backreference takes the range that was stored last under its name, and what was stored under the
name before is hidden.  The atoms of the range are then compared one by one with those behind the
cursor, up to the limit: they are all there again, or the first that is missing or differs is where
the comparison fails.
-/

set_option autoImplicit false

namespace PegForest

variable {α τ : Type} {order : Comparator α} {source : Array α} {window : Window α}
  {atoms : List α} {cursor limit start stop j : Nat}

def Comparator.Repeats (order : Comparator α) (source : Array α) (place earlier : Nat) : Prop :=
  ∃ a b, source[place]? = some a ∧ source[earlier]? = some b ∧ order.same a b = true

def Window.Fits (window : Window α) (order : Comparator α) (cursor : Nat) (atoms : List α)
    (j : Nat) : Prop :=
  ∃ a expected, window.peek? (cursor + j) = some a ∧ atoms[j]? = some expected ∧
    order.same a expected = true

theorem Window.fits_succ (expected : α) :
    window.Fits order cursor (expected :: atoms) (j + 1) ↔ window.Fits order (cursor + 1) atoms j := by
  unfold Fits
  rw [List.getElem?_cons_succ, Nat.add_assoc, Nat.add_comm 1]

theorem Window.fits_extract (inside : stop ≤ source.size) (small : j < stop - start) :
    Window.Fits ⟨source, limit⟩ order cursor (source.extract start stop).toList j ↔
      cursor + j < limit ∧ order.Repeats source (cursor + j) (start + j) := by
  have expected : (source.extract start stop).toList[j]? = source[start + j]? := by
    rw [Array.getElem?_toList, Array.getElem?_extract, if_pos (by omega)]
  unfold Fits Window.peek? Comparator.Repeats
  rw [expected]
  by_cases below : cursor + j < limit
  · simp only [if_true, below, true_and]
  · simp only [if_false, below, false_and, iff_false]
    rintro ⟨a, b, peeked, -⟩
    cases peeked

namespace Reading

/-- The literal is matched as a whole, or fails at the first atom that does not fit. -/
theorem literal_outcome (order : Comparator α) (window : Window α) (atoms : List α) (cursor : Nat)
    (refs : List Backref) :
    (∀ j < atoms.length, window.Fits order cursor atoms j) ∧
        (literal order window atoms : Reading τ) refs cursor =
          .ok (.matched (cursor + atoms.length) [] []) ∨
      ∃ j < atoms.length, ¬window.Fits order cursor atoms j ∧
        (∀ i < j, window.Fits order cursor atoms i) ∧
        (literal order window atoms : Reading τ) refs cursor = .ok (.failed (cursor + j)) := by
  induction atoms generalizing cursor with
  | nil => exact .inl ⟨nofun, rfl⟩
  | cons expected rest ih =>
      by_cases fits : window.Fits order cursor (expected :: rest) 0
      · have here : (literal order window (expected :: rest) : Reading τ) refs cursor =
            literal order window rest refs (cursor + 1) := by
          obtain ⟨a, b, peeked, first, same⟩ := fits
          cases first
          rw [Nat.add_zero] at peeked
          simp only [literal, peeked, if_pos same]
        have moved : ∀ count, cursor + 1 + count = cursor + (count + 1) := fun count => by omega
        rw [here, List.length_cons]
        rcases ih (cursor + 1) with ⟨agree, read⟩ | ⟨j, small, differs, agree, read⟩
        · refine .inl ⟨?_, by rw [read, moved]⟩
          rintro (_ | j) small
          · exact fits
          · exact (Window.fits_succ expected).mpr (agree j (Nat.lt_of_succ_lt_succ small))
        · refine .inr ⟨j + 1, Nat.succ_lt_succ small, ?_, ?_, by rw [read, moved]⟩
          · rwa [Window.fits_succ]
          · rintro (_ | i) less
            · exact fits
            · exact (Window.fits_succ expected).mpr (agree i (Nat.lt_of_succ_lt_succ less))
      · refine .inr ⟨0, Nat.succ_pos _, fits, nofun, ?_⟩
        unfold literal
        cases peeked : window.peek? cursor with
        | none => rfl
        | some a =>
            by_cases same : order.same a expected = true
            · exact absurd ⟨a, expected, peeked, rfl, same⟩ fits
            · simp only [if_neg same, Nat.add_zero]

theorem find?_last {name : String} {after : List Backref} (before : List Backref) (range : Range)
    (unnamed : ∀ entry ∈ after, entry.name ≠ name) :
    ((before ++ ⟨name, range⟩ :: after).reverse.find? fun entry => entry.name == name) =
      some ⟨name, range⟩ := by
  have hidden : (after.reverse.find? fun entry => entry.name == name) = none := by
    rw [List.find?_eq_none]
    intro entry member
    simpa using unnamed entry (List.mem_reverse.mp member)
  rw [List.reverse_append, List.reverse_cons, List.append_assoc, List.find?_append, hidden]
  simp

section Recalling

variable {first second third : Reading τ} {name : String} {refs stored stored' : List Backref}
  {trees trees' : List (MarkedTree τ)} {next ended : Nat}

theorem store_of_matched (found : first refs cursor = .ok (.matched next trees stored))
    (name : String) : first.store name refs cursor =
      .ok (.matched next trees (stored ++ [⟨name, ⟨cursor, next⟩⟩])) := by
  simp only [store, found, Fault.ok_bind, Fault.pure_eq_ok]

theorem andThen_andThen_of_matched (found : first refs cursor = .ok (.matched next trees stored))
    (found' : second (refs ++ stored) next = .ok (.matched ended trees' stored')) :
    (first.andThen (second.andThen third)) refs cursor =
      third.resume refs ended (trees ++ trees') (stored ++ stored') := by
  rw [andThen_of_matched found, ← after_resume, ← andThen_of_matched found']
  rfl

/-- The range that was stored is recalled, if nothing has been stored under its name since. -/
theorem backref_of_stored (refs stored : List Backref) (ordered : cursor ≤ next)
    (inside : next ≤ source.size) (unnamed : ∀ entry ∈ stored', entry.name ≠ name)
    (order : Comparator α) (limit ended : Nat) :
    (backref order ⟨source, limit⟩ name : Reading τ)
        (refs ++ (stored ++ [⟨name, ⟨cursor, next⟩⟩] ++ stored')) ended =
      literal order ⟨source, limit⟩ (source.extract cursor next).toList
        (refs ++ (stored ++ [⟨name, ⟨cursor, next⟩⟩] ++ stored')) ended := by
  let entry : Backref := ⟨name, ⟨cursor, next⟩⟩
  have found : ((refs ++ (stored ++ [entry] ++ stored')).reverse.find?
      fun entry => entry.name == name) = some entry := by
    simpa only [List.append_assoc, List.singleton_append] using
      find?_last (refs ++ stored) ⟨cursor, next⟩ unnamed
  have sliced : slice source cursor next = .ok (source.extract cursor next) :=
    if_pos ⟨ordered, inside⟩
  exact backref_of_slice found sliced ended

/-- A stored range, what follows it and its repetition: all atoms of the range are repeated before
the limit, or the first that is not is where the repetition fails. -/
theorem recall_outcome (ordered : cursor ≤ next) (inside : next ≤ source.size)
    (consumed : first refs cursor = .ok (.matched next trees stored))
    (followed : second (refs ++ (stored ++ [⟨name, ⟨cursor, next⟩⟩])) next =
      .ok (.matched ended trees' stored'))
    (unnamed : ∀ entry ∈ stored', entry.name ≠ name) (order : Comparator α) (limit : Nat) :
    (∀ j < next - cursor, ended + j < limit ∧ order.Repeats source (ended + j) (cursor + j)) ∧
        (∃ trees kept, ((first.store name).andThen
          (second.andThen (backref order ⟨source, limit⟩ name))) refs cursor =
            .ok (.matched (ended + (next - cursor)) trees kept)) ∨
      ∃ j < next - cursor, ¬(ended + j < limit ∧ order.Repeats source (ended + j) (cursor + j)) ∧
        (∀ i < j, ended + i < limit ∧ order.Repeats source (ended + i) (cursor + i)) ∧
        ((first.store name).andThen (second.andThen (backref order ⟨source, limit⟩ name)))
          refs cursor = .ok (.failed (ended + j)) := by
  have length : (source.extract cursor next).toList.length = next - cursor := by
    rw [Array.length_toList, Array.size_extract, Nat.min_eq_left inside]
  rw [andThen_andThen_of_matched (store_of_matched consumed name) followed]
  have recalled := backref_of_stored (τ := τ) refs stored ordered inside unnamed order limit ended
  rcases literal_outcome order ⟨source, limit⟩ (source.extract cursor next).toList ended
      (refs ++ (stored ++ [⟨name, ⟨cursor, next⟩⟩] ++ stored')) with
    ⟨agree, read⟩ | ⟨j, small, differs, agree, read⟩
  · rw [length] at agree read
    exact .inl ⟨fun j small => (Window.fits_extract inside small).mp (agree j small),
      _, _, resume_of_matched (recalled.trans read)⟩
  · rw [length] at small
    refine .inr ⟨j, small, ?_, fun i less => ?_, resume_of_failed (recalled.trans read) _⟩
    · rwa [← Window.fits_extract inside small]
    · exact (Window.fits_extract inside (Nat.lt_trans less small)).mp (agree i less)

end Recalling

end Reading

end PegForest
