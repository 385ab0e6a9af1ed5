import PegForest.Proofs.Reading.Text

/-!
# Trees over a word

`Grows input reading w rest shown` says that wherever the word `w` stands with `rest` behind it, the
reading takes the word to its end and builds trees of which `shown` holds.  Readings in a row take
words in a row; a choice takes what one alternative takes and the alternatives before it refuse; a
list takes its parts and the marks between them.

What a barren reading takes, it takes without building anything, so that a scanner says all of it.
-/

set_option autoImplicit false

namespace PegForest

variable {input : Array UInt8} {τ : Type}

namespace Reading

variable {reading first second : Reading τ} {refs stored stored' : List Backref}
  {cursor next next' : Nat} {trees : List (MarkedTree τ)}

/-! ## Readings without trees -/

def Barren (reading : Reading τ) : Prop :=
  ∀ refs cursor next trees stored,
    reading refs cursor = .ok (.matched next trees stored) → trees = []

theorem Barren.resume (barren : second.Barren)
    (matched : second.resume refs next [] stored = .ok (.matched next' trees stored')) :
    trees = [] := by
  obtain ⟨outcome, found, same⟩ := Fault.bind_eq_ok.mp matched
  cases outcome with
  | matched next'' trees'' stored'' =>
      cases same
      exact barren _ _ _ _ _ found
  | failed offset => cases same

theorem barren_succeed : (succeed : Reading τ).Barren := by
  intro refs cursor next trees stored matched
  cases matched
  rfl

theorem barren_one {α : Type} (window : Window α) (test : α → Except Fault Bool) :
    (one window test : Reading τ).Barren := by
  intro refs cursor next trees stored matched
  unfold one at matched
  split at matched
  · cases matched
  · obtain ⟨passed, -, same⟩ := Fault.bind_eq_ok.mp matched
    cases passed with
    | true =>
        cases same
        rfl
    | false => cases same

theorem Barren.andThen (barren : first.Barren) (barren' : second.Barren) :
    (first.andThen second).Barren := by
  intro refs cursor next trees stored matched
  obtain ⟨outcome, found, goesOn⟩ := Fault.bind_eq_ok.mp matched
  cases outcome with
  | matched middle front stored' =>
      cases barren _ _ _ _ _ found
      exact barren'.resume goesOn
  | failed offset => cases goesOn

theorem Barren.thenIfMoved (barren : first.Barren) (barren' : second.Barren) :
    (first.thenIfMoved second).Barren := by
  intro refs cursor next trees stored matched
  obtain ⟨outcome, found, goesOn⟩ := Fault.bind_eq_ok.mp matched
  cases outcome with
  | matched middle front stored' =>
      cases barren _ _ _ _ _ found
      dsimp only at goesOn
      split at goesOn
      · cases goesOn
        rfl
      · exact barren'.resume goesOn
  | failed offset => cases goesOn

theorem Barren.sequence {readings : List (Reading τ)}
    (barren : ∀ reading ∈ readings, reading.Barren) : (sequence readings).Barren := by
  induction readings with
  | nil => exact barren_succeed
  | cons reading rest ih =>
      rw [List.forall_mem_cons] at barren
      exact barren.1.andThen (ih barren.2)

theorem Barren.firstOf {readings : List (Reading τ)} (barren : ∀ reading ∈ readings, reading.Barren)
    (offset : Nat) : (firstOf offset readings).Barren := by
  induction readings generalizing offset with
  | nil =>
      intro refs cursor next trees stored matched
      cases matched
  | cons reading rest ih =>
      rw [List.forall_mem_cons] at barren
      intro refs cursor next trees stored matched
      obtain ⟨outcome, found, goesOn⟩ := Fault.bind_eq_ok.mp matched
      cases outcome with
      | matched next' trees' stored' =>
          cases goesOn
          exact barren.1 _ _ _ _ _ found
      | failed furthest => exact ih barren.2 _ _ _ _ _ _ goesOn

theorem Barren.choice {readings : List (Reading τ)}
    (barren : ∀ reading ∈ readings, reading.Barren) : (choice readings).Barren := by
  intro refs cursor
  exact Barren.firstOf barren cursor refs cursor

theorem Barren.optional (barren : reading.Barren) : reading.optional.Barren := by
  intro refs cursor next trees stored matched
  obtain ⟨outcome, found, goesOn⟩ := Fault.bind_eq_ok.mp matched
  cases outcome with
  | matched next' trees' stored' =>
      cases goesOn
      exact barren _ _ _ _ _ found
  | failed offset =>
      cases goesOn
      rfl

theorem barren_notAhead (reading : Reading τ) : reading.notAhead.Barren := by
  intro refs cursor next trees stored matched
  obtain ⟨outcome, -, goesOn⟩ := Fault.bind_eq_ok.mp matched
  cases outcome with
  | matched next' trees' stored' => cases goesOn
  | failed offset =>
      cases goesOn
      rfl

theorem Barren.times (barren : reading.Barren) (count : Nat) : (reading.times count).Barren := by
  induction count with
  | zero => exact barren_succeed
  | succ count ih => exact barren.andThen ih

theorem Barren.greedy (barren : reading.Barren) (fault : Fault) (rounds : Nat) :
    (reading.greedy (.stop fault) rounds).Barren := by
  induction rounds with
  | zero =>
      intro refs cursor next trees stored matched
      cases matched
  | succ rounds ih =>
      intro refs cursor next trees stored matched
      obtain ⟨outcome, found, goesOn⟩ := Fault.bind_eq_ok.mp matched
      cases outcome with
      | matched middle front stored' =>
          cases barren _ _ _ _ _ found
          dsimp only at goesOn
          split at goesOn
          · cases goesOn
            rfl
          · exact ih.resume goesOn
      | failed offset =>
          cases goesOn
          rfl

theorem Barren.repeated (barren : reading.Barren) : (reading.repeated input).Barren := by
  intro refs cursor
  exact barren.greedy .exhausted _ refs cursor

theorem barren_literal {α : Type} [Atom α] (order : Comparator α) (window : Window α)
    (atoms : List α) : (literal order window atoms : Reading τ).Barren := by
  induction atoms with
  | nil => exact barren_succeed
  | cons expected tail ih =>
      rw [literal_cons]
      exact (barren_one window _).andThen ih

/-! ## Refusal -/

def Refuses (input : Array UInt8) (reading : Reading τ) (cs : List Char) : Prop :=
  ∀ refs cursor, Before input cursor cs → ∃ offset, reading refs cursor = .ok (.failed offset)

variable {bound : Nat} {scanner : Scanner} {cs v w rest : List Char}
  {shown shown' joined : List (MarkedTree τ) → Prop}

theorem Refuses.of_scans (scans : reading.Scans input bound scanner) (short : cs.length < bound)
    (refused : scanner cs = none) : reading.Refuses input cs := by
  intro refs cursor place
  obtain ⟨next, trees, stored, rest, -, taken, -⟩ | ⟨offset, found, -⟩ :=
    (scans refs cursor cs place short).cases
  · rw [refused] at taken
    cases taken
  · exact ⟨offset, found⟩

theorem Refuses.andThen (refuses : first.Refuses input cs) (second : Reading τ) :
    (first.andThen second).Refuses input cs := by
  intro refs cursor place
  obtain ⟨offset, found⟩ := refuses refs cursor place
  exact ⟨offset, andThen_of_failed found⟩

theorem Barren.taken (barren : reading.Barren) (scans : reading.Scans input bound scanner)
    (place : Before input cursor (w ++ rest)) (short : (w ++ rest).length < bound)
    (taken : scanner (w ++ rest) = some rest) (ascii : ∀ c ∈ w, c.toNat < 128)
    (refs : List Backref) :
    ∃ stored, reading refs cursor = .ok (.matched (cursor + w.length) [] stored) := by
  have later := place.drop ascii
  obtain ⟨next, trees, stored, rest', found, same, place', -⟩ | ⟨offset, -, same⟩ :=
    (scans refs cursor _ place short).cases
  · rw [taken] at same
    cases same
    have size := later.size
    have size' := place'.size
    obtain rfl : next = cursor + w.length := by omega
    rw [barren _ _ _ _ _ found] at found
    exact ⟨stored, found⟩
  · rw [taken] at same
    cases same

/-! ## Growth -/

/-- Where the word stands before the rest, the reading takes it and what it builds is shown. -/
def Grows (input : Array UInt8) (reading : Reading τ) (w rest : List Char)
    (shown : List (MarkedTree τ) → Prop) : Prop :=
  ∀ refs cursor, Before input cursor (w ++ rest) → ∃ next trees stored,
    reading refs cursor = .ok (.matched next trees stored) ∧ Before input next rest ∧ shown trees

theorem Grows.mono (grows : reading.Grows input w rest shown)
    (weaker : ∀ trees, shown trees → shown' trees) : reading.Grows input w rest shown' := by
  intro refs cursor place
  obtain ⟨next, trees, stored, found, later, holds⟩ := grows refs cursor place
  exact ⟨next, trees, stored, found, later, weaker trees holds⟩

theorem Grows.andThen (grows : first.Grows input v (w ++ rest) shown)
    (grows' : second.Grows input w rest shown')
    (join : ∀ front back, shown front → shown' back → joined (front ++ back)) :
    (first.andThen second).Grows input (v ++ w) rest joined := by
  intro refs cursor place
  rw [List.append_assoc] at place
  obtain ⟨middle, front, stored, found, place', holds⟩ := grows refs cursor place
  obtain ⟨next, back, stored', found', later, holds'⟩ := grows' (refs ++ stored) middle place'
  refine ⟨next, front ++ back, stored ++ stored', ?_, later, join front back holds holds'⟩
  rw [andThen_of_matched found, resume_of_matched found']

theorem Grows.behind (grows : first.Grows input v (w ++ rest) (· = []))
    (grows' : second.Grows input w rest shown) :
    (first.andThen second).Grows input (v ++ w) rest shown := by
  apply grows.andThen grows'
  rintro _ back rfl holds
  exact holds

theorem Grows.ahead (grows : first.Grows input v (w ++ rest) shown)
    (grows' : second.Grows input w rest (· = [])) :
    (first.andThen second).Grows input (v ++ w) rest shown := by
  apply grows.andThen grows'
  rintro front _ holds rfl
  rwa [List.append_nil]

theorem Grows.of_scans (barren : reading.Barren) (scans : reading.Scans input bound scanner)
    (short : (w ++ rest).length < bound) (taken : scanner (w ++ rest) = some rest) :
    reading.Grows input w rest (· = []) := by
  intro refs cursor place
  obtain ⟨next, trees, stored, rest', found, same, later, -⟩ | ⟨offset, -, same⟩ :=
    (scans refs cursor _ place short).cases
  · rw [taken] at same
    cases same
    exact ⟨next, trees, stored, found, later, barren _ _ _ _ _ found⟩
  · rw [taken] at same
    cases same

/-- The bytes from one offset to another are those of the word. -/
def Covers (input : Array UInt8) (start stop : Nat) (w : List Char) : Prop :=
  stop ≤ input.size ∧ (input.extract start stop).toList = encodeAll w

def Leaf (input : Array UInt8) (tag : τ) (w : List Char) (trees : List (MarkedTree τ)) : Prop :=
  ∃ start stop, trees = [.node (some tag) start stop false []] ∧ Covers input start stop w

theorem Grows.leaf (barren : reading.Barren) (tag : τ)
    (scans : (reading.node (some tag) false).Scans input bound scanner)
    (short : (w ++ rest).length < bound) (taken : scanner (w ++ rest) = some rest) :
    (reading.node (some tag) false).Grows input w rest (Leaf input tag w) := by
  intro refs cursor place
  obtain ⟨next, trees, stored, rest', found, same, later, -⟩ | ⟨offset, -, same⟩ :=
    (scans refs cursor _ place short).cases
  · rw [taken] at same
    cases same
    obtain ⟨outcome, inside, built⟩ := Fault.bind_eq_ok.mp found
    cases outcome with
    | matched next' children stored' =>
        cases barren _ _ _ _ _ inside
        cases built
        exact ⟨_, _, _, found, later, cursor, _, rfl, place.extract later⟩
    | failed offset => cases built
  · rw [taken] at same
    cases same

def Branch (tag : τ) (shown : List (MarkedTree τ) → Prop) (trees : List (MarkedTree τ)) : Prop :=
  ∃ start stop children,
    trees = [.node (some tag) start stop false (children.map .unmark)] ∧ shown children

theorem Grows.node (grows : reading.Grows input w rest shown) (tag : τ) :
    (reading.node (some tag) false).Grows input w rest (Branch tag shown) := by
  intro refs cursor place
  obtain ⟨next, children, stored, found, later, holds⟩ := grows refs cursor place
  exact ⟨next, _, stored, node_of_matched found _ _, later, cursor, next, children, rfl, holds⟩

/-! ## Choices -/

/-- One of the alternatives takes the word, and the ones before it refuse. -/
def OneGrows (input : Array UInt8) (readings : List (Reading τ)) (w rest : List Char)
    (shown : List (MarkedTree τ) → Prop) : Prop :=
  ∀ offset, (firstOf offset readings).Grows input w rest shown

theorem Grows.here (grows : reading.Grows input w rest shown) (others : List (Reading τ)) :
    OneGrows input (reading :: others) w rest shown := by
  intro offset refs cursor place
  obtain ⟨next, trees, stored, found, later, holds⟩ := grows refs cursor place
  exact ⟨next, trees, stored, firstOf_of_matched found offset, later, holds⟩

theorem OneGrows.cons {readings : List (Reading τ)} (refuses : reading.Refuses input (w ++ rest))
    (grows : OneGrows input readings w rest shown) :
    OneGrows input (reading :: readings) w rest shown := by
  intro offset refs cursor place
  obtain ⟨furthest, failed⟩ := refuses refs cursor place
  rw [firstOf_of_failed failed]
  exact grows _ refs cursor place

theorem OneGrows.choice {readings : List (Reading τ)}
    (grows : OneGrows input readings w rest shown) :
    (choice readings).Grows input w rest shown := by
  intro refs cursor
  exact grows cursor refs cursor

/-! ## Lists -/

variable {last part separator : Reading τ} {rounds : Nat} {mark : List Char}

theorem Grows.greedy (grows : reading.Grows input v (w ++ rest) shown) (nonempty : v ≠ [])
    (grows' : (reading.greedy last rounds).Grows input w rest shown')
    (join : ∀ front back, shown front → shown' back → joined (front ++ back)) :
    (reading.greedy last (rounds + 1)).Grows input (v ++ w) rest joined := by
  intro refs cursor place
  rw [List.append_assoc] at place
  obtain ⟨middle, front, stored, found, place', holds⟩ := grows refs cursor place
  obtain ⟨next, back, stored', found', later, holds'⟩ := grows' (refs ++ stored) middle place'
  have positive := List.length_pos_iff.mpr nonempty
  -- A round that takes nothing would be the last one.
  have moved : cursor < middle := by
    apply place.lt place' (List.suffix_append v (w ++ rest))
    simp only [List.length_append]
    omega
  refine ⟨next, front ++ back, stored ++ stored', ?_, later, join front back holds holds'⟩
  simp only [Reading.greedy, found, Fault.ok_bind, if_neg (Nat.ne_of_gt moved)]
  exact resume_of_matched found'

theorem Refuses.greedy (refuses : reading.Refuses input rest) (last : Reading τ) (rounds : Nat) :
    (reading.greedy last (rounds + 1)).Grows input [] rest (· = []) := by
  intro refs cursor place
  obtain ⟨offset, failed⟩ := refuses refs cursor place
  refine ⟨cursor, [], [], ?_, place, rfl⟩
  simp only [Reading.greedy, failed, Fault.ok_bind, Fault.pure_eq_ok]

/-- One round more than there are bytes left is enough for one round more than the word is long. -/
theorem Grows.repeated
    (grows : ∀ rounds, w.length < rounds →
      (reading.greedy (.stop .exhausted) rounds).Grows input w rest shown) :
    (reading.repeated input).Grows input w rest shown := by
  intro refs cursor place
  have length := length_le_encodeAll (w ++ rest)
  rw [List.length_append] at length
  exact grows _ (by rw [place.left]; omega) refs cursor place

/-- Words in a row, with a mark between any two, each of which the part takes. -/
inductive GrowsAll (input : Array UInt8) (part : Reading τ) (mark rest : List Char) :
    List Char → (List (MarkedTree τ) → Prop) → Prop where
  | last {w : List Char} {shown : List (MarkedTree τ) → Prop}
      (grows : part.Grows input w rest shown) : GrowsAll input part mark rest w shown
  | more {v w : List Char} {shown shown' joined : List (MarkedTree τ) → Prop}
      (grows : part.Grows input v (mark ++ (w ++ rest)) shown)
      (others : GrowsAll input part mark rest w shown')
      (join : ∀ front back, shown front → shown' back → joined (front ++ back)) :
      GrowsAll input part mark rest (v ++ (mark ++ w)) joined

/-- Behind a part every round takes a mark and the next part. -/
theorem GrowsAll.loop (grows : GrowsAll input part mark rest w shown) (nonempty : mark ≠ [])
    (marks : ∀ cs, separator.Grows input mark cs (· = [])) (ended : separator.Refuses input rest)
    (enough : (mark ++ w).length < rounds) :
    ((separator.andThen part).greedy last rounds).Grows input (mark ++ w) rest shown := by
  have positive := List.length_pos_iff.mpr nonempty
  have behind : ∀ v, mark ++ v ≠ [] := fun v empty => nonempty (List.append_eq_nil_iff.mp empty).1
  induction grows generalizing rounds with
  | @last w shown grows =>
      rw [List.length_append] at enough
      -- A round for the last part, and one that finds no mark.
      obtain ⟨rounds, rfl⟩ := Nat.exists_eq_add_of_le (show 2 ≤ rounds by omega)
      rw [Nat.add_comm]
      have here := ((marks _).behind grows).greedy (w := []) (behind w)
        ((ended.andThen part).greedy last rounds) fun front back holds empty => by
          rwa [empty, List.append_nil]
      rwa [List.append_nil] at here
  | @more v w shown shown' joined grows others join ih =>
      simp only [List.length_append] at enough
      obtain ⟨rounds, rfl⟩ := Nat.exists_eq_add_one_of_ne_zero (Nat.ne_zero_of_lt enough)
      have later : (mark ++ w).length < rounds := by
        rw [List.length_append]
        omega
      rw [← List.append_assoc] at grows ⊢
      exact ((marks _).behind grows).greedy (behind v) (ih later) join

theorem GrowsAll.separated (grows : GrowsAll input part mark rest w shown) (nonempty : mark ≠ [])
    (marks : ∀ cs, separator.Grows input mark cs (· = [])) (ended : separator.Refuses input rest) :
    (part.andThen ((separator.andThen part).repeated input)).Grows input w rest shown := by
  cases grows with
  | last grows =>
      have nothing : ((separator.andThen part).repeated input).Grows input [] rest (· = []) := by
        apply Grows.repeated
        intro rounds enough
        obtain ⟨rounds, rfl⟩ := Nat.exists_eq_add_one_of_ne_zero (Nat.ne_zero_of_lt enough)
        exact (ended.andThen part).greedy _ rounds
      have whole := Grows.ahead (w := []) grows nothing
      rwa [List.append_nil] at whole
  | @more v w shown shown' joined grows others join =>
      rw [← List.append_assoc] at grows
      exact grows.andThen (Grows.repeated fun rounds => others.loop nonempty marks ended) join

end Reading

end PegForest
