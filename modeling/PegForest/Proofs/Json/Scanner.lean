import PegForest.Proofs.Json.Syntax

/-!
# Scanners

A scanner takes characters off the front of a list, as many as it likes, or refuses.  It is what is
left of a reading when trees, backreferences and offsets are forgotten and the input is text.

`Sound scanner language` says that only words of the language are taken.  `Takes scanner language
next` says that every word of the language is taken, and nothing beyond it, when the first character
after the word satisfies `next`.  Scanners are greedy, so without a condition on what follows the
latter would be false: after `1` more digits may come.
-/

set_option autoImplicit false

namespace PegForest

open scoped Computability

abbrev Scanner := List Char → Option (List Char)

namespace Scanner

def succeed : Scanner := some

def one (test : Char → Bool) : Scanner
  | [] => none
  | c :: rest => if test c then some rest else none

def literal : List Char → Scanner
  | [] => succeed
  | expected :: rest => fun cs => (one (Json.Syntax.among [expected]) cs).bind (literal rest)

def andThen (first second : Scanner) : Scanner := fun cs =>
  (first cs).bind second

def sequence : List Scanner → Scanner
  | [] => succeed
  | scanner :: rest => scanner.andThen (sequence rest)

def choice : List Scanner → Scanner
  | [] => fun _ => none
  | scanner :: rest => fun cs => (scanner cs).or (choice rest cs)

def optional (scanner : Scanner) : Scanner := fun cs =>
  some ((scanner cs).getD cs)

def star (scanner : Scanner) (cs : List Char) : Option (List Char) :=
  match scanner cs with
  | none => some cs
  | some rest => if rest.length < cs.length then star scanner rest else some rest
termination_by cs.length

def plus (scanner : Scanner) : Scanner :=
  scanner.andThen scanner.star

def times (scanner : Scanner) : Nat → Scanner
  | 0 => succeed
  | count + 1 => scanner.andThen (times scanner count)

theorem one_shorter {test : Char → Bool} {cs rest : List Char} (taken : one test cs = some rest) :
    rest.length < cs.length := by
  cases cs with
  | nil => cases taken
  | cons c tail =>
      simp only [one, Option.ite_none_right_eq_some, Option.some.injEq] at taken
      rw [← taken.2, List.length_cons]
      exact Nat.lt_succ_self _

theorem star_of_none {scanner : Scanner} {cs : List Char} (refused : scanner cs = none) :
    scanner.star cs = some cs := by
  rw [star, refused]

theorem star_of_some {scanner : Scanner} {cs rest : List Char} (taken : scanner cs = some rest)
    (shorter : rest.length < cs.length) : scanner.star cs = scanner.star rest := by
  rw [star, taken]
  exact if_pos shorter

@[simp] theorem andThen_succeed (scanner : Scanner) : scanner.andThen succeed = scanner := by
  funext cs
  unfold andThen succeed
  cases scanner cs <;> rfl

/-! ## Soundness -/

def Sound (scanner : Scanner) (language : Language Char) : Prop :=
  ∀ cs rest, scanner cs = some rest → ∃ w ∈ language, cs = w ++ rest

variable {scanner first second : Scanner} {language language' : Language Char}

theorem sound_succeed : Sound succeed 1 := by
  intro cs rest taken
  cases taken
  exact ⟨[], rfl, rfl⟩

theorem sound_one (test : Char → Bool) : Sound (one test) (Json.Syntax.letter test) := by
  intro cs rest taken
  cases cs with
  | nil => cases taken
  | cons c tail =>
      by_cases passed : test c = true
      · rw [one, if_pos passed] at taken
        cases taken
        exact ⟨[c], ⟨c, passed, rfl⟩, rfl⟩
      · rw [one, if_neg passed] at taken
        cases taken

theorem choice_one_cons {scanners : List Scanner} {test test' : Char → Bool}
    (others : choice scanners = one test') :
    choice (one test :: scanners) = one fun c => test c || test' c := by
  funext cs
  cases cs with
  | nil => simp [choice, others, one]
  | cons c rest => cases passed : test c <;> simp [choice, others, one, passed]

theorem choice_one (test : Char → Bool) : choice [one test] = one test := by
  funext cs
  simp [choice]

theorem letter_add (test test' : Char → Bool) : Json.Syntax.letter test + Json.Syntax.letter test' =
    Json.Syntax.letter fun c => test c || test' c := by
  ext w
  constructor
  · rintro (⟨c, passed, rfl⟩ | ⟨c, passed, rfl⟩)
    · exact ⟨c, by simp [passed], rfl⟩
    · exact ⟨c, by simp [passed], rfl⟩
  · rintro ⟨c, passed, rfl⟩
    rcases Bool.or_eq_true_iff.mp passed with left | right
    · exact .inl ⟨c, left, rfl⟩
    · exact .inr ⟨c, right, rfl⟩

theorem Sound.andThen (sound : Sound first language) (sound' : Sound second language') :
    Sound (first.andThen second) (language * language') := by
  intro cs rest taken
  obtain ⟨middle, taken, taken'⟩ := Option.bind_eq_some_iff.mp taken
  obtain ⟨w, word, rfl⟩ := sound cs middle taken
  obtain ⟨w', word', rfl⟩ := sound' middle rest taken'
  exact ⟨w ++ w', Language.append_mem_mul word word', by simp⟩

theorem Sound.choice {scanners : List Scanner}
    (sound : ∀ scanner ∈ scanners, Sound scanner language) : Sound (choice scanners) language := by
  induction scanners with
  | nil =>
      intro cs rest taken
      cases taken
  | cons scanner others ih =>
      intro cs rest taken
      rcases Option.or_eq_some_iff.mp taken with here | ⟨-, later⟩
      · exact sound scanner (by simp) cs rest here
      · exact ih (fun other member => sound other (by simp [member])) cs rest later

theorem Sound.mono (sound : Sound scanner language) (included : ∀ w ∈ language, w ∈ language') :
    Sound scanner language' := by
  intro cs rest taken
  obtain ⟨w, word, same⟩ := sound cs rest taken
  exact ⟨w, included w word, same⟩

theorem Sound.optional (sound : Sound scanner language) :
    Sound scanner.optional (Json.Syntax.optional language) := by
  intro cs rest taken
  unfold Scanner.optional at taken
  cases found : scanner cs with
  | none =>
      rw [found] at taken
      cases taken
      exact ⟨[], .inl rfl, rfl⟩
  | some left =>
      rw [found] at taken
      cases taken
      obtain ⟨w, word, same⟩ := sound cs _ found
      exact ⟨w, .inr word, same⟩

theorem Sound.star (sound : Sound scanner language) : Sound scanner.star language∗ := by
  intro cs
  induction cs using Scanner.star.induct scanner with
  | case1 cs refused =>
      intro rest taken
      rw [star_of_none refused] at taken
      cases taken
      exact ⟨[], Language.nil_mem_kstar language, rfl⟩
  | case2 cs middle taken shorter ih =>
      intro rest finished
      rw [star_of_some taken shorter] at finished
      obtain ⟨w, word, rfl⟩ := sound cs middle taken
      obtain ⟨w', ⟨words, rfl, all⟩, rfl⟩ := ih rest finished
      refine ⟨w ++ words.flatten, ⟨w :: words, by simp, ?_⟩, by simp⟩
      intro part member
      rcases List.mem_cons.mp member with rfl | later
      · exact word
      · exact all part later
  | case3 cs middle taken same =>
      intro rest finished
      rw [Scanner.star, taken] at finished
      simp only [if_neg same] at finished
      cases finished
      obtain ⟨w, word, rfl⟩ := sound cs _ taken
      exact ⟨w, ⟨[w], by simp, by simpa using word⟩, rfl⟩

theorem Sound.plus (sound : Sound scanner language) :
    Sound scanner.plus (language * language∗) :=
  sound.andThen sound.star

theorem Sound.times (sound : Sound scanner language) (count : Nat) :
    Sound (scanner.times count) (language ^ count) := by
  induction count with
  | zero =>
      rw [pow_zero]
      exact sound_succeed
  | succ count ih =>
      rw [pow_succ']
      exact sound.andThen ih

theorem sound_literal (word : List Char) : Sound (literal word) {word} := by
  induction word with
  | nil => exact sound_succeed
  | cons expected rest ih =>
      intro cs left taken
      obtain ⟨middle, here, later⟩ := Option.bind_eq_some_iff.mp taken
      obtain ⟨w, ⟨c, same, rfl⟩, rfl⟩ := sound_one _ cs middle here
      obtain ⟨w', rfl, rfl⟩ := ih middle left later
      have same : c = expected := by simpa [Json.Syntax.among] using same
      exact ⟨_, rfl, by simp [same]⟩

/-! ## First characters -/

def Next (condition : Char → Prop) (cs : List Char) : Prop :=
  ∀ c ∈ cs.head?, condition c

/-- Every word begins with a character that passes the test. -/
def Opens (test : Char → Bool) (language : Language Char) : Prop :=
  ∀ w ∈ language, ∃ c rest, w = c :: rest ∧ test c = true

variable {test test' : Char → Bool} {next next' : Char → Prop}

theorem next_nil (condition : Char → Prop) : Next condition [] := by
  intro c member
  cases member

theorem next_cons {condition : Char → Prop} {c : Char} {rest : List Char} :
    Next condition (c :: rest) ↔ condition c := by
  constructor
  · intro holds
    exact holds c rfl
  · intro holds c' member
    cases member
    exact holds

theorem exists_of_not_next {condition : Char → Prop} {cs : List Char} (other : ¬Next condition cs) :
    ∃ c rest, cs = c :: rest ∧ ¬condition c := by
  cases cs with
  | nil => exact absurd (next_nil condition) other
  | cons c rest => exact ⟨c, rest, rfl, mt next_cons.mpr other⟩

theorem exists_of_mark {mark : Char} {cs : List Char} (here : ¬Next (· ≠ mark) cs) :
    ∃ rest, cs = mark :: rest := by
  obtain ⟨c, rest, rfl, same⟩ := exists_of_not_next here
  exact ⟨rest, by rw [not_not.mp same]⟩

theorem split_while (test : Char → Bool) (cs : List Char) :
    ∃ w rest, cs = w ++ rest ∧ (∀ c ∈ w, test c = true) ∧ Next (fun c => test c = false) rest := by
  induction cs with
  | nil => exact ⟨[], [], rfl, List.forall_mem_nil _, next_nil _⟩
  | cons c cs ih =>
      cases passed : test c with
      | false => exact ⟨[], c :: cs, rfl, List.forall_mem_nil _, next_cons.mpr passed⟩
      | true =>
          obtain ⟨w, rest, rfl, all, ended⟩ := ih
          exact ⟨c :: w, rest, rfl, List.forall_mem_cons.mpr ⟨passed, all⟩, ended⟩

theorem opens_letter (test : Char → Bool) : Opens test (Json.Syntax.letter test) := by
  rintro w ⟨c, passed, rfl⟩
  exact ⟨c, [], rfl, passed⟩

theorem Opens.mul (opens : Opens test language) : Opens test (language * language') := by
  intro w word
  obtain ⟨u, left, v, -, rfl⟩ := Language.mem_mul.mp word
  obtain ⟨c, rest, rfl, passed⟩ := opens u left
  exact ⟨c, rest ++ v, rfl, passed⟩

theorem Opens.add (opens : Opens test language) (opens' : Opens test' language') :
    Opens (fun c => test c || test' c) (language + language') := by
  intro w word
  rcases word with left | right
  · obtain ⟨c, rest, rfl, passed⟩ := opens w left
    exact ⟨c, rest, rfl, by simp [passed]⟩
  · obtain ⟨c, rest, rfl, passed⟩ := opens' w right
    exact ⟨c, rest, rfl, by simp [passed]⟩

theorem Opens.mono (opens : Opens test language) (weaker : ∀ c, test c = true → test' c = true) :
    Opens test' language := by
  intro w word
  obtain ⟨c, rest, rfl, passed⟩ := opens w word
  exact ⟨c, rest, rfl, weaker c passed⟩

theorem Sound.refuses (sound : Sound scanner language) (opens : Opens test language)
    {cs : List Char} (wrong : Next (fun c => test c = false) cs) : scanner cs = none := by
  cases found : scanner cs with
  | none => rfl
  | some rest =>
      obtain ⟨w, word, rfl⟩ := sound cs rest found
      obtain ⟨c, tail, rfl, passed⟩ := opens w word
      have failed := next_cons.mp wrong
      rw [passed] at failed
      cases failed

/-- Words of the language lead on from what may follow them to what may follow before them. -/
def Leads (language : Language Char) (next' next : Char → Prop) : Prop :=
  ∀ w ∈ language, ∀ rest, Next next' rest → Next next (w ++ rest)

theorem Opens.leads (opens : Opens test language) (right : ∀ c, test c = true → next c) :
    Leads language next' next := by
  intro w word rest _
  obtain ⟨c, tail, rfl, passed⟩ := opens w word
  exact next_cons.mpr (right c passed)

theorem Leads.mul (leads : Leads language next' next) {last : Char → Prop}
    (leads' : Leads language' last next') : Leads (language * language') last next := by
  intro w word rest follows
  obtain ⟨u, left, v, right, rfl⟩ := Language.mem_mul.mp word
  rw [List.append_assoc]
  exact leads u left (v ++ rest) (leads' v right rest follows)

theorem Opens.leads_optional (opens : Opens test language) (right : ∀ c, test c = true → next c)
    (weaker : ∀ c, next' c → next c) : Leads (Json.Syntax.optional language) next' next := by
  intro w word rest follows
  rcases word with rfl | inner
  · exact fun c member => weaker c (follows c member)
  · exact opens.leads right w inner rest follows

theorem Opens.leads_star (opens : Opens test language) (right : ∀ c, test c = true → next c)
    (weaker : ∀ c, next' c → next c) : Leads language∗ next' next := by
  rintro w ⟨words, rfl, all⟩ rest follows
  cases words with
  | nil => exact fun c member => weaker c (follows c member)
  | cons word words =>
      obtain ⟨c, tail, rfl, passed⟩ := opens word (all word (by simp))
      exact next_cons.mpr (right c passed)

theorem one_refused {rest : List Char} (ended : Next (fun c => test c = false) rest) :
    one test rest = none :=
  (sound_one test).refuses (opens_letter test) ended

theorem star_one {w rest : List Char} (passed : ∀ c ∈ w, test c = true)
    (ended : Next (fun c => test c = false) rest) : (one test).star (w ++ rest) = some rest := by
  induction w with
  | nil => exact star_of_none (one_refused ended)
  | cons c w ih =>
      rw [List.forall_mem_cons] at passed
      have taken : one test (c :: (w ++ rest)) = some (w ++ rest) := if_pos passed.1
      rw [List.cons_append, star_of_some taken (Nat.lt_succ_self _), ih passed.2]

/-! ## Completeness -/

/-- The bound on the length is for scanners that call each other; other scanners have none. -/
def Takes (bound : Nat) (scanner : Scanner) (language : Language Char) (next : Char → Prop) : Prop :=
  ∀ w ∈ language, ∀ rest, Next next rest → (w ++ rest).length < bound → scanner (w ++ rest) = some rest

variable {bound : Nat}

theorem takes_succeed : Takes bound succeed 1 next := by
  rintro w rfl rest - -
  rfl

theorem takes_one (test : Char → Bool) :
    Takes bound (one test) (Json.Syntax.letter test) next := by
  rintro w ⟨c, passed, rfl⟩ rest - -
  exact if_pos passed

theorem takes_literal (word : List Char) : Takes bound (literal word) {word} next := by
  rintro w rfl rest - -
  induction w with
  | nil => rfl
  | cons expected tail ih =>
      have same : Json.Syntax.among [expected] expected = true := by simp [Json.Syntax.among]
      simp [literal, one, same, ih]

theorem Takes.mono (takes : Takes bound scanner language next) (stronger : ∀ c, next' c → next c) :
    Takes bound scanner language next' := by
  intro w word rest follows short
  exact takes w word rest (fun c member => stronger c (follows c member)) short

theorem Takes.andThen (takes : Takes bound first language next)
    (takes' : Takes bound second language' next') (leads : Leads language' next' next) :
    Takes bound (first.andThen second) (language * language') next' := by
  intro w word rest follows short
  obtain ⟨u, left, v, right, rfl⟩ := Language.mem_mul.mp word
  have later : (v ++ rest).length < bound := by
    simp only [List.length_append] at short ⊢
    omega
  rw [List.append_assoc] at short ⊢
  rw [Scanner.andThen, takes u left (v ++ rest) (leads v right rest follows) short, Option.bind_some]
  exact takes' v right rest follows later

theorem Takes.one_andThen (test : Char → Bool) (takes : Takes bound second language next) :
    Takes bound ((one test).andThen second) (Json.Syntax.letter test * language) next := by
  have first : Takes bound (one test) (Json.Syntax.letter test) fun _ => True := takes_one test
  exact first.andThen takes fun _ _ _ _ _ _ => trivial

/-- After a first character the bound may be smaller. -/
theorem Takes.after_one (test : Char → Bool) (takes : Takes bound second language next) :
    Takes (bound + 1) ((one test).andThen second) (Json.Syntax.letter test * language) next := by
  intro w word rest follows short
  obtain ⟨u, ⟨c, passed, rfl⟩, v, right, rfl⟩ := Language.mem_mul.mp word
  rw [List.append_assoc, List.singleton_append, List.length_cons] at short
  rw [List.append_assoc, List.singleton_append, Scanner.andThen, one, if_pos passed,
    Option.bind_some]
  exact takes v right rest follows (by omega)

theorem Takes.optional (takes : Takes bound scanner language next) (sound : Sound scanner language)
    (opens : Opens test language) :
    Takes bound scanner.optional (Json.Syntax.optional language)
      (fun c => next c ∧ test c = false) := by
  intro w word rest follows short
  rcases word with rfl | inner
  · have refused := sound.refuses opens fun c member => (follows c member).2
    rw [Scanner.optional, List.nil_append, refused]
    rfl
  · rw [Scanner.optional, takes w inner rest (fun c member => (follows c member).1) short]
    rfl

/-- Repetition takes as much as it can, so what follows must not begin another round. -/
theorem Takes.star (takes : Takes bound scanner language next) (sound : Sound scanner language)
    (opens : Opens test language) (again : ∀ c, test c = true → next c) :
    Takes bound scanner.star language∗ (fun c => next c ∧ test c = false) := by
  rintro w ⟨words, rfl, all⟩ rest follows short
  induction words with
  | nil => exact star_of_none (sound.refuses opens fun c member => (follows c member).2)
  | cons word words ih =>
      have others : ∀ part ∈ words, part ∈ language := fun part member => all part (by simp [member])
      have follows' : Next next (words.flatten ++ rest) :=
        opens.leads_star again (fun _ both => both.1) _ ⟨words, rfl, others⟩ rest follows
      obtain ⟨c, tail, same, -⟩ := opens word (all word (by simp))
      rw [List.flatten_cons, List.append_assoc] at short ⊢
      generalize words.flatten ++ rest = left at *
      have shorter : left.length < (word ++ left).length := by
        simp only [same, List.length_append, List.length_cons]
        omega
      rw [star_of_some (takes word (all word (by simp)) left follows' short) shorter]
      exact ih others (by omega)

theorem takes_star_one (test : Char → Bool) :
    Takes bound (one test).star (Json.Syntax.letter test)∗ fun c => test c = false := by
  have first : Takes bound (one test) (Json.Syntax.letter test) fun _ => True := takes_one test
  exact (first.star (sound_one test) (opens_letter test) fun _ _ => trivial).mono
    fun _ other => ⟨trivial, other⟩

theorem Takes.times (takes : Takes bound scanner language fun _ => True) (count : Nat) :
    Takes bound (scanner.times count) (language ^ count) fun _ => True := by
  induction count with
  | zero =>
      rw [pow_zero]
      exact takes_succeed
  | succ count ih =>
      rw [pow_succ']
      exact takes.andThen ih fun _ _ _ _ _ _ => trivial

theorem Takes.choice_last (takes : Takes bound scanner language next) :
    Takes bound (choice [scanner]) language next := by
  intro w word rest follows short
  simp [Scanner.choice, takes w word rest follows short]

/-- An alternative comes to its turn when the ones before it refuse. -/
theorem Takes.choice_cons {scanners : List Scanner} (takes : Takes bound scanner language next)
    (takes' : Takes bound (choice scanners) language' next) (sound : Sound scanner language)
    (opens : Opens test language) (opens' : Opens test' language')
    (apart : ∀ c, test' c = true → test c = false) :
    Takes bound (choice (scanner :: scanners)) (language + language') next := by
  intro w word rest follows short
  rcases word with left | right
  · simp [Scanner.choice, takes w left rest follows short]
  · have wrong : Next (fun c => test c = false) (w ++ rest) :=
      opens'.leads apart w right rest follows
    simp [Scanner.choice, sound.refuses opens wrong, takes' w right rest follows short]

end Scanner

end PegForest
