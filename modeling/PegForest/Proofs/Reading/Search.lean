import PegForest.Proofs.Reading.Text

/-!
# Searching a text

A reading that looks for a word of ASCII finds it exactly where the characters begin with it.  A
search for the word goes over bytes, but inside a character outside ASCII there is nothing to be
found, so it goes from one character to the next.  It stops at the first place where the word
stands, or else fails at the end of the input.
-/

set_option autoImplicit false

namespace PegForest.Reading

open Text.Ascii

variable {τ : Type} {input : Array UInt8} {cursor left : Nat} {refs : List Backref}
  {cs word front rest : List Char}

/-! ## Words -/

theorem literal_taken (ascii : ∀ c ∈ word, c.toNat < 128)
    (place : Before input cursor (word ++ rest)) (refs : List Backref) :
    (literal .natural ⟨input, input.size⟩ (bytes word) : Reading τ) refs cursor =
      .ok (.matched (cursor + word.length) [] []) := by
  induction word generalizing cursor with
  | nil => rfl
  | cons c word ih =>
      rw [List.forall_mem_cons] at ascii
      obtain ⟨found, place'⟩ := exactly_taken (τ := τ) ascii.1 place refs
      rw [bytes, List.map_cons, literal_cons, andThen_of_matched found, resume_nil]
      rw [← bytes, ih ascii.2 place', List.length_cons, Nat.add_assoc, Nat.add_comm 1]

theorem literal_refused (ascii : ∀ c ∈ word, c.toNat < 128) (place : Before input cursor cs)
    (absent : ¬word <+: cs) (refs : List Backref) :
    ∃ offset, (literal .natural ⟨input, input.size⟩ (bytes word) : Reading τ) refs cursor =
      .ok (.failed offset) := by
  have narrow : word.all (·.toNat < 128) = true :=
    List.all_eq_true.mpr fun c member => decide_eq_true (ascii c member)
  have scans : (literal .natural ⟨input, input.size⟩ (bytes word) : Reading τ).Scans input
      (cs.length + 1) (Scanner.literal word) := scans_literal narrow
  rcases (scans refs cursor cs place (Nat.lt_succ_self _)).cases with
    ⟨next, trees, stored, rest, -, taken, -, -⟩ | ⟨offset, found, -⟩
  · obtain ⟨w, rfl, split⟩ := Scanner.sound_literal word cs rest taken
    exact absurd ⟨rest, split.symm⟩ absent
  · exact ⟨offset, found⟩

/-- Inside a character outside ASCII no word begins. -/
theorem literal_inside (ascii : ∀ c ∈ word, c.toNat < 128) (nonempty : word ≠ []) {b : UInt8}
    (peeked : Window.peek? ⟨input, input.size⟩ cursor = some b) (high : 128 ≤ b.toNat)
    (refs : List Backref) :
    (literal .natural ⟨input, input.size⟩ (bytes word) : Reading τ) refs cursor =
      .ok (.failed cursor) := by
  obtain ⟨c, word, rfl⟩ := List.exists_cons_of_ne_nil nonempty
  have refused : (one ⟨input, input.size⟩ ((AtomClass.exactly (byte c)).test .natural) :
      Reading τ) refs cursor = .ok (.failed cursor) :=
    one_of_peek peeked ((spells_exactly (ascii c List.mem_cons_self)).high b high) refs
  rw [bytes, List.map_cons, literal_cons, andThen_of_failed refused]

theorem literal_append {α : Type} [Atom α] (order : Comparator α) (window : Window α)
    (first second : List α) : (literal order window (first ++ second) : Reading τ) =
      (literal order window first).andThen (literal order window second) := by
  induction first with
  | nil =>
      funext refs cursor
      exact (resume_nil _ refs cursor).symm
  | cons a first ih => rw [List.cons_append, literal_cons, literal_cons, ih, andThen_assoc]

/-! ## Searches -/

theorem upTo_of_matched {reading : Reading τ} {next : Nat} {trees : List (MarkedTree τ)}
    {stored : List Backref} (found : reading refs cursor = .ok (.matched next trees stored))
    (left : Nat) : reading.upTo left refs cursor = .ok (.matched cursor [] []) := by
  cases left with
  | zero => simp only [upTo, found, Fault.ok_bind, Fault.pure_eq_ok]
  | succ left => simp only [upTo, found, Fault.ok_bind, Fault.pure_eq_ok]

theorem upTo_of_failed {reading : Reading τ} {offset : Nat}
    (missing : reading refs cursor = .ok (.failed offset)) (left : Nat) :
    reading.upTo (left + 1) refs cursor = reading.upTo left refs (cursor + 1) := by
  conv_lhs => unfold upTo
  simp only [missing, Fault.ok_bind]

/-- With these backreferences the reading looks for a word of ASCII that is not empty. -/
structure Seeks (input : Array UInt8) (reading : Reading τ) (refs : List Backref)
    (word : List Char) : Prop where
  ascii : ∀ c ∈ word, c.toNat < 128
  nonempty : word ≠ []
  same : ∀ cursor, reading refs cursor = literal .natural ⟨input, input.size⟩ (bytes word) refs cursor

namespace Seeks

variable {reading : Reading τ} (seeks : reading.Seeks input refs word)

include seeks

theorem found (place : Before input cursor (word ++ rest)) :
    reading refs cursor = .ok (.matched (cursor + word.length) [] []) :=
  (seeks.same cursor).trans (literal_taken seeks.ascii place refs)

theorem missing (place : Before input cursor cs) (absent : ¬word <+: cs) :
    ∃ offset, reading refs cursor = .ok (.failed offset) := by
  rw [seeks.same]
  exact literal_refused seeks.ascii place absent refs

theorem upTo_bytes {before high back : List UInt8} (whole : input.toList = before ++ (high ++ back))
    (wide : ∀ b ∈ high, 128 ≤ b.toNat) :
    reading.upTo (high.length + left) refs before.length =
      reading.upTo left refs (before.length + high.length) := by
  induction high generalizing before with
  | nil => rw [List.length_nil, Nat.zero_add, Nat.add_zero]
  | cons b high ih =>
      rw [List.forall_mem_cons] at wide
      have missing := (seeks.same before.length).trans
        (literal_inside seeks.ascii seeks.nonempty (peek_of_toList whole) wide.1 refs)
      have whole' : input.toList = before ++ [b] ++ (high ++ back) := by simpa using whole
      have later := ih whole' wide.2
      rw [List.length_append, List.length_singleton] at later
      rw [List.length_cons, Nat.add_right_comm, upTo_of_failed missing, later, Nat.add_assoc,
        Nat.add_comm 1]

theorem upTo_char {c : Char} (place : Before input cursor (c :: rest))
    (absent : ¬word <+: c :: rest) :
    reading.upTo ((String.utf8EncodeChar c).length + left) refs cursor =
      reading.upTo left refs (cursor + (String.utf8EncodeChar c).length) := by
  by_cases ascii : c.toNat < 128
  · obtain ⟨offset, missing⟩ := seeks.missing place absent
    rw [encode_ascii ascii, List.length_singleton, Nat.add_comm 1, upTo_of_failed missing]
  · obtain ⟨before, whole, rfl⟩ := place
    rw [encodeAll_cons] at whole
    exact seeks.upTo_bytes whole (encode_wide (Nat.le_of_not_lt ascii))

theorem upTo_front (place : Before input cursor (front ++ rest))
    (absent : ∀ k < front.length, ¬word <+: (front ++ rest).drop k) :
    reading.upTo ((encodeAll front).length + left) refs cursor =
      reading.upTo left refs (cursor + (encodeAll front).length) := by
  induction front generalizing cursor with
  | nil => exact congrArg (fun left => reading.upTo left refs cursor) (Nat.zero_add left)
  | cons c front ih =>
      have later := ih place.cons fun k small => absent (k + 1) (Nat.succ_lt_succ small)
      rw [encodeAll_cons, List.length_append, Nat.add_assoc,
        seeks.upTo_char place (absent 0 (Nat.succ_pos _)), later, Nat.add_assoc]

/-- The search stops where the word stands for the first time. -/
theorem upTo_first (place : Before input cursor (front ++ (word ++ rest)))
    (first : ∀ k < front.length, ¬word <+: (front ++ (word ++ rest)).drop k) :
    reading.upTo (Window.left ⟨input, input.size⟩ cursor) refs cursor =
      .ok (.matched (cursor + (encodeAll front).length) [] []) := by
  rw [place.left, encodeAll_append, List.length_append, seeks.upTo_front place first]
  exact upTo_of_matched (seeks.found place.skip) _

theorem upTo_never (place : Before input cursor cs) (never : ¬word <:+: cs) :
    reading.upTo (Window.left ⟨input, input.size⟩ cursor) refs cursor =
      .ok (.failed input.size) := by
  have absent : ∀ k < cs.length, ¬word <+: (cs ++ []).drop k := by
    intro k _ here
    rw [List.append_nil] at here
    exact never (here.isInfix.trans (List.drop_suffix k cs).isInfix)
  have size := place.size
  have left := place.left
  rw [← List.append_nil cs] at place
  have stop := place.skip
  obtain ⟨offset, missing⟩ := seeks.missing stop (by simpa using seeks.nonempty)
  have atEnd : reading.upTo 0 refs input.size = .ok (.failed input.size) := by
    rw [← size] at missing
    simp only [upTo, missing, Fault.ok_bind, Fault.pure_eq_ok]
  rw [left, ← Nat.add_zero (encodeAll cs).length, seeks.upTo_front place absent, ← size, atEnd]

end Seeks

end PegForest.Reading
