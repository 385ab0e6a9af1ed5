import PegForest.Proofs.Json.Syntax

/-!
# Blanks around values

The standard gives blanks to the structural characters.  A grammar that skips the blanks around every
value, every key and inside empty brackets, and matches brackets, commas and colons on their own,
derives the same texts: `text_eq` says that texts solve the equation of that grammar.
-/

set_option autoImplicit false

namespace PegForest.Json.Syntax

open scoped Computability

def memberOf (value : Language Char) : Language Char :=
  ws * string * ws * letter (among [':']) * value

def listOf (part : Language Char) : Language Char :=
  part * (letter (among [',']) * part)∗

/-- Brackets around parts, or around blanks. -/
def bracketed (opening closing : Char) (part : Language Char) : Language Char :=
  letter (among [opening]) * (listOf part + ws) * letter (among [closing])

def core (value : Language Char) : Language Char :=
  bracketed '\x7b' '\x7d' (memberOf value) + (bracketed '[' ']' value + (string + (number +
    ({['t', 'r', 'u', 'e']} + ({['f', 'a', 'l', 's', 'e']} + {['n', 'u', 'l', 'l']})))))

/-- What a symbol derives, with blanks around it. -/
def padded (symbol : Symbol) : Language Char :=
  ws * language symbol * ws

theorem mem_letter_among {mark : Char} {w : List Char} :
    w ∈ letter (among [mark]) ↔ w = [mark] := by
  constructor
  · rintro ⟨c, same, rfl⟩
    have same : c = mark := by simpa [among] using same
    rw [same]
  · rintro rfl
    exact ⟨mark, by simp [among], rfl⟩

theorem nil_mem_ws : [] ∈ ws :=
  Language.nil_mem_kstar _

theorem append_mem_ws {a b : List Char} (left : a ∈ ws) (right : b ∈ ws) : a ++ b ∈ ws := by
  have both : a ++ b ∈ ws * ws := Language.append_mem_mul left right
  rwa [ws, kstar_mul_kstar] at both

theorem mem_structural {mark : Char} {w : List Char} :
    w ∈ structural mark ↔ ∃ a ∈ ws, ∃ b ∈ ws, w = a ++ mark :: b := by
  simp only [structural, Language.mem_mul, mem_letter_among]
  constructor
  · rintro ⟨_, ⟨a, left, _, rfl, rfl⟩, b, right, rfl⟩
    exact ⟨a, left, b, right, by simp⟩
  · rintro ⟨a, left, b, right, rfl⟩
    exact ⟨a ++ [mark], ⟨a, left, [mark], rfl, rfl⟩, b, right, by simp⟩

theorem mem_between_blanks {inner : Language Char} {w : List Char} :
    w ∈ ws * inner * ws ↔ ∃ a ∈ ws, ∃ v ∈ inner, ∃ b ∈ ws, w = a ++ (v ++ b) := by
  simp only [Language.mem_mul]
  constructor
  · rintro ⟨_, ⟨a, left, v, derived, rfl⟩, b, right, rfl⟩
    exact ⟨a, left, v, derived, b, right, by simp⟩
  · rintro ⟨a, left, v, derived, b, right, rfl⟩
    exact ⟨a ++ v, ⟨a, left, v, derived, rfl⟩, b, right, by simp⟩

theorem mem_padded {symbol : Symbol} {w : List Char} :
    w ∈ padded symbol ↔ ∃ a ∈ ws, ∃ v, Derives symbol v ∧ ∃ b ∈ ws, w = a ++ (v ++ b) :=
  mem_between_blanks

theorem mem_memberOf {value : Language Char} {w : List Char} :
    w ∈ memberOf value ↔ ∃ a ∈ ws, ∃ k ∈ string, ∃ b ∈ ws, ∃ v ∈ value,
      w = a ++ (k ++ (b ++ ':' :: v)) := by
  simp only [memberOf, Language.mem_mul, mem_letter_among]
  constructor
  · rintro ⟨_, ⟨_, ⟨_, ⟨a, left, k, key, rfl⟩, b, right, rfl⟩, _, rfl, rfl⟩, v, inner, rfl⟩
    exact ⟨a, left, k, key, b, right, v, inner, by simp⟩
  · rintro ⟨a, left, k, key, b, right, v, inner, rfl⟩
    exact ⟨a ++ k ++ b ++ [':'], ⟨a ++ k ++ b, ⟨a ++ k, ⟨a, left, k, key, rfl⟩, b, right, rfl⟩,
      [':'], rfl, rfl⟩, v, inner, by simp⟩

/-! ## Lists -/

theorem mem_listOf_of_mem {part : Language Char} {w : List Char} (only : w ∈ part) :
    w ∈ listOf part := by
  have one : w ++ [] ∈ listOf part := Language.append_mem_mul only (Language.nil_mem_kstar _)
  rwa [List.append_nil] at one

theorem cons_mem_listOf {part : Language Char} {w v : List Char} (head : w ∈ part)
    (others : v ∈ listOf part) : w ++ ',' :: v ∈ listOf part := by
  obtain ⟨x, first, y, ⟨words, rfl, all⟩, rfl⟩ := Language.mem_mul.mp others
  refine Language.append_mem_mul head ⟨([','] ++ x) :: words, by simp, ?_⟩
  intro word member
  rcases List.mem_cons.mp member with rfl | later
  · exact Language.append_mem_mul (mem_letter_among.mpr rfl) first
  · exact all word later

theorem listOf_induction {part : Language Char} {motive : List Char → Prop}
    (last : ∀ w ∈ part, motive w)
    (more : ∀ w ∈ part, ∀ v, v ∈ listOf part → motive v → motive (w ++ ',' :: v)) :
    ∀ w ∈ listOf part, motive w := by
  intro w list
  obtain ⟨x, first, y, ⟨words, rfl, all⟩, rfl⟩ := Language.mem_mul.mp list
  induction words generalizing x with
  | nil => simpa using last x first
  | cons word words ih =>
      obtain ⟨c, comma, x', next, rfl⟩ := Language.mem_mul.mp (all word (by simp))
      rw [mem_letter_among.mp comma, List.flatten_cons, List.append_assoc, List.singleton_append]
      have others : ∀ word ∈ words, word ∈ letter (among [',']) * part :=
        fun word member => all word (by simp [member])
      have tail : x' ++ words.flatten ∈ listOf part :=
        Language.append_mem_mul next ⟨words, rfl, others⟩
      exact more x first _ tail (ih x' next others tail)

theorem listOf_mono {part part' : Language Char} (included : ∀ w ∈ part, w ∈ part') :
    ∀ w ∈ listOf part, w ∈ listOf part' := by
  apply listOf_induction
  · exact fun w one => mem_listOf_of_mem (included w one)
  · exact fun w one _ _ ih => cons_mem_listOf (included w one) ih

theorem listOf_padded {part whole : Symbol} (last : ∀ w, Derives part w → Derives whole w)
    (more : ∀ w s v, Derives part w → s ∈ structural ',' → Derives whole v →
      Derives whole (w ++ s ++ v)) :
    ∀ w ∈ listOf (padded part), w ∈ padded whole := by
  apply listOf_induction
  · intro w one
    obtain ⟨a, left, v, derived, b, right, rfl⟩ := mem_padded.mp one
    exact mem_padded.mpr ⟨a, left, v, last v derived, b, right, rfl⟩
  · intro w one tail _ ih
    obtain ⟨a, left, v, derived, b, right, rfl⟩ := mem_padded.mp one
    obtain ⟨a', left', v', derived', b', right', rfl⟩ := mem_padded.mp ih
    have comma : b ++ ',' :: a' ∈ structural ',' := mem_structural.mpr ⟨b, right, a', left', rfl⟩
    exact mem_padded.mpr ⟨a, left, _, more v _ v' derived comma derived', b', right', by simp⟩

theorem memberOf_padded {w : List Char} (member : w ∈ memberOf (padded .value)) :
    w ∈ padded .member := by
  obtain ⟨a, left, k, key, b, right, _, inner, rfl⟩ := mem_memberOf.mp member
  obtain ⟨a', left', v, derived, b', right', rfl⟩ := mem_padded.mp inner
  have colon : b ++ ':' :: a' ∈ structural ':' := mem_structural.mpr ⟨b, right, a', left', rfl⟩
  exact mem_padded.mpr ⟨a, left, _, .member key colon derived, b', right', by simp⟩

/-! ## Both directions -/

def expanded : Symbol → Language Char
  | .value => padded .value
  | .member => memberOf (padded .value)
  | .members => listOf (memberOf (padded .value))
  | .elements => listOf (padded .value)

theorem mem_expanded : ∀ {symbol : Symbol} {w : List Char}, Derives symbol w →
    ∀ a ∈ ws, ∀ b ∈ ws, a ++ (w ++ b) ∈ expanded symbol
  | .value, w, derived, a, left, b, right => mem_padded.mpr ⟨a, left, w, derived, b, right, rfl⟩
  | .member, _, .member key separator value, a, left, b, right => by
      obtain ⟨c, before, d, after, rfl⟩ := mem_structural.mp separator
      have inner := mem_padded.mpr ⟨d, after, _, value, b, right, rfl⟩
      exact mem_memberOf.mpr ⟨a, left, _, key, c, before, _, inner, by simp⟩
  | .members, _, .lastMember member, a, left, b, right =>
      mem_listOf_of_mem (mem_expanded member a left b right)
  | .elements, _, .lastElement value, a, left, b, right =>
      mem_listOf_of_mem (mem_expanded value a left b right)
  | .members, _, .moreMembers member separator others, a, left, b, right => by
      obtain ⟨c, before, d, after, rfl⟩ := mem_structural.mp separator
      have list := cons_mem_listOf (mem_expanded member a left c before)
        (mem_expanded others d after b right)
      simp only [List.append_assoc, List.cons_append] at list ⊢
      exact list
  | .elements, _, .moreElements value separator others, a, left, b, right => by
      obtain ⟨c, before, d, after, rfl⟩ := mem_structural.mp separator
      have list := cons_mem_listOf (mem_expanded value a left c before)
        (mem_expanded others d after b right)
      simp only [List.append_assoc, List.cons_append] at list ⊢
      exact list

theorem mem_bracketed {opening closing : Char} {part : Language Char} {w : List Char} :
    w ∈ bracketed opening closing part ↔
      ∃ v, (v ∈ listOf part ∨ v ∈ ws) ∧ w = opening :: (v ++ [closing]) := by
  simp only [bracketed, Language.mem_mul, mem_letter_among, Language.mem_add]
  constructor
  · rintro ⟨_, ⟨_, rfl, v, inner, rfl⟩, _, rfl, rfl⟩
    exact ⟨v, inner, by simp⟩
  · rintro ⟨v, inner, rfl⟩
    exact ⟨[opening] ++ v, ⟨[opening], rfl, v, inner, rfl⟩, [closing], rfl, by simp⟩

/-- Blanks around brackets go to the outside and blanks inside them to what stands there. -/
theorem padded_of_structural {opening closing : Char} {x a b y : List Char}
    (part : Language Char) (w : List Char) (left : x ∈ ws) (begins : a ∈ structural opening)
    (inner : ∀ c ∈ ws, ∀ d ∈ ws, c ++ (w ++ d) ∈ listOf part ∨ c ++ (w ++ d) ∈ ws)
    (ends : b ∈ structural closing) (right : y ∈ ws) :
    ∃ p ∈ ws, ∃ v ∈ bracketed opening closing part, ∃ q ∈ ws,
      x ++ ((a ++ w ++ b) ++ y) = p ++ (v ++ q) := by
  obtain ⟨a₁, outside, a₂, inside, rfl⟩ := mem_structural.mp begins
  obtain ⟨b₁, inside', b₂, outside', rfl⟩ := mem_structural.mp ends
  refine ⟨x ++ a₁, append_mem_ws left outside, _,
    mem_bracketed.mpr ⟨_, inner a₂ inside b₁ inside', rfl⟩, b₂ ++ y, append_mem_ws outside' right, ?_⟩
  simp

theorem bracketed_padded {opening closing : Char} {part : Language Char} {w : List Char}
    {whole : Symbol} (bracket : w ∈ bracketed opening closing part)
    (list : ∀ v ∈ listOf part, v ∈ padded whole)
    (empty : ∀ a b, a ∈ structural opening → b ∈ structural closing → Derives .value (a ++ b))
    (full : ∀ a v b, a ∈ structural opening → Derives whole v → b ∈ structural closing →
      Derives .value (a ++ v ++ b)) : Derives .value w := by
  have closed : ∀ b ∈ ws, b ++ [closing] ∈ structural closing := fun b blank =>
    mem_structural.mpr ⟨b, blank, [], nil_mem_ws, rfl⟩
  have opened : ∀ a ∈ ws, opening :: a ∈ structural opening := fun a blank =>
    mem_structural.mpr ⟨[], nil_mem_ws, a, blank, rfl⟩
  obtain ⟨v, inner | blank, rfl⟩ := mem_bracketed.mp bracket
  · obtain ⟨a, left, u, derived, b, right, rfl⟩ := mem_padded.mp (list v inner)
    have whole := full _ u _ (opened a left) derived (closed b right)
    simpa using whole
  · have whole := empty _ _ (opened v blank) (closed [] nil_mem_ws)
    simpa using whole

theorem mem_core_of_derives {x v y : List Char} (left : x ∈ ws) (derived : Derives .value v)
    (right : y ∈ ws) : x ++ (v ++ y) ∈ ws * core text * ws := by
  have plain : v ∈ core text → x ++ (v ++ y) ∈ ws * core text * ws := fun inner =>
    mem_between_blanks.mpr ⟨x, left, v, inner, y, right, rfl⟩
  cases derived with
  | true => exact plain (.inr (.inr (.inr (.inr (.inl rfl)))))
  | false => exact plain (.inr (.inr (.inr (.inr (.inr (.inl rfl))))))
  | null => exact plain (.inr (.inr (.inr (.inr (.inr (.inr rfl))))))
  | number derived => exact plain (.inr (.inr (.inr (.inl derived))))
  | string derived => exact plain (.inr (.inr (.inl derived)))
  | @emptyArray a b opening closing =>
      obtain ⟨p, before, u, inner, q, after, same⟩ := padded_of_structural text [] left
        opening (fun c blank d blank' => .inr (append_mem_ws blank blank')) closing right
      rw [List.append_nil] at same
      exact mem_between_blanks.mpr ⟨p, before, u, .inr (.inl inner), q, after, same⟩
  | @array a w b opening elements closing =>
      obtain ⟨p, before, u, inner, q, after, same⟩ := padded_of_structural text w left opening
        (fun c blank d blank' => .inl (mem_expanded elements c blank d blank')) closing right
      exact mem_between_blanks.mpr ⟨p, before, u, .inr (.inl inner), q, after, same⟩
  | @emptyObject a b opening closing =>
      obtain ⟨p, before, u, inner, q, after, same⟩ := padded_of_structural (memberOf text) []
        left opening (fun c blank d blank' => .inr (append_mem_ws blank blank')) closing right
      rw [List.append_nil] at same
      exact mem_between_blanks.mpr ⟨p, before, u, .inl inner, q, after, same⟩
  | @object a w b opening members closing =>
      obtain ⟨p, before, u, inner, q, after, same⟩ := padded_of_structural (memberOf text) w left
        opening (fun c blank d blank' => .inl (mem_expanded members c blank d blank')) closing right
      exact mem_between_blanks.mpr ⟨p, before, u, .inl inner, q, after, same⟩

theorem derives_of_mem_core {v : List Char} (inner : v ∈ core text) : Derives .value v := by
  have elements : ∀ v ∈ listOf text, v ∈ padded .elements :=
    listOf_padded (fun _ => .lastElement) fun _ _ _ => .moreElements
  have members : ∀ v ∈ listOf (memberOf text), v ∈ padded .members := by
    intro v list
    refine listOf_padded (fun _ => .lastMember) (fun _ _ _ => .moreMembers) v ?_
    exact listOf_mono (fun _ => memberOf_padded) v list
  rcases inner with bracket | bracket | derived | derived | rfl | rfl | rfl
  · exact bracketed_padded bracket members (fun _ _ => .emptyObject) fun _ _ _ => .object
  · exact bracketed_padded bracket elements (fun _ _ => .emptyArray) fun _ _ _ => .array
  · exact .string derived
  · exact .number derived
  · exact .true
  · exact .false
  · exact .null

/-- Texts solve the equation of the grammar that skips blanks around values. -/
theorem text_eq : text = ws * core text * ws := by
  apply Set.Subset.antisymm
  · intro w enclosed
    obtain ⟨x, left, v, derived, y, right, rfl⟩ := mem_between_blanks.mp enclosed
    exact mem_core_of_derives left derived right
  · intro w enclosed
    obtain ⟨x, left, v, inner, y, right, rfl⟩ := mem_between_blanks.mp enclosed
    exact mem_padded.mpr ⟨x, left, v, derives_of_mem_core inner, y, right, rfl⟩

end PegForest.Json.Syntax
