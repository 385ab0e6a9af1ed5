import PegForest.Matcher.Eval
import PegForest.Matcher.Valid

/-!
# Other atoms in the same matcher

`mapAtoms` puts other atoms in the place of those that a matcher stores, in its classes and in its
literals, and leaves everything else as it is.  A window is mapped along with it.
-/

set_option autoImplicit false

namespace PegForest

variable {α β τ ρ : Type} {key : α → β}

namespace AtomClass

def map (key : α → β) : AtomClass α → AtomClass β
  | any => any
  | exactly a => exactly (key a)
  | within low high => within (key low) (key high)
  | among set => among (set.map key)
  | except inner => except (inner.map key)

theorem map_id (kind : AtomClass α) : kind.map id = kind := by
  induction kind with
  | among set => rw [map, List.map_id]
  | except inner ih => rw [map, ih]
  | _ => rfl

theorem validate_map (kind : AtomClass α) : (kind.map key).validate = kind.validate := by
  induction kind with
  | among set => rw [map, validate, validate, List.isEmpty_map]
  | except inner ih => exact ih
  | _ => rfl

end AtomClass

namespace Matcher

mutual

def mapAtoms (key : α → β) : Matcher α τ ρ → Matcher β τ ρ
  | .one kind => .one (kind.map key)
  | .literal atoms => .literal (atoms.map key)
  | .endOfInput => .endOfInput
  | .seq steps => .seq (mapAtomsAll key steps)
  | .seqOpt steps => .seqOpt (mapAtomsAll key steps)
  | .choice alternatives => .choice (mapAtomsAll key alternatives)
  | .nonEmpty inner => .nonEmpty (inner.mapAtoms key)
  | .star inner => .star (inner.mapAtoms key)
  | .plus inner => .plus (inner.mapAtoms key)
  | .opt inner => .opt (inner.mapAtoms key)
  | .times count inner => .times count (inner.mapAtoms key)
  | .timesBetween least most inner => .timesBetween least most (inner.mapAtoms key)
  | .ahead inner => .ahead (inner.mapAtoms key)
  | .notAhead inner => .notAhead (inner.mapAtoms key)
  | .upTo inner => .upTo (inner.mapAtoms key)
  | .block opening item closing =>
      .block (opening.mapAtoms key) (item.mapAtoms key) (closing.mapAtoms key)
  | .list opening item separator closing =>
      .list (opening.mapAtoms key) (item.mapAtoms key) (separator.mapAtoms key)
        (closing.mapAtoms key)
  | .store name inner => .store name (inner.mapAtoms key)
  | .backref name => .backref name
  | .node tag bookmark inner => .node tag bookmark (inner.mapAtoms key)
  | .promote inner => .promote (inner.mapAtoms key)
  | .rule name => .rule name
  | .skip count => .skip count
  | .failAt offset => .failAt offset

def mapAtomsAll (key : α → β) : List (Matcher α τ ρ) → List (Matcher β τ ρ)
  | [] => []
  | matcher :: rest => matcher.mapAtoms key :: mapAtomsAll key rest

end

mutual

theorem mapAtoms_id : ∀ matcher : Matcher α τ ρ, matcher.mapAtoms id = matcher
  | .one kind => by rw [mapAtoms, kind.map_id]
  | .literal atoms => by rw [mapAtoms, List.map_id]
  | .seq steps => by rw [mapAtoms, mapAtomsAll_id steps]
  | .seqOpt steps => by rw [mapAtoms, mapAtomsAll_id steps]
  | .choice alternatives => by rw [mapAtoms, mapAtomsAll_id alternatives]
  | .nonEmpty inner | .star inner | .plus inner | .opt inner => by rw [mapAtoms, mapAtoms_id inner]
  | .ahead inner | .notAhead inner | .upTo inner => by rw [mapAtoms, mapAtoms_id inner]
  | .times _ inner | .timesBetween _ _ inner => by rw [mapAtoms, mapAtoms_id inner]
  | .store _ inner | .node _ _ inner | .promote inner => by rw [mapAtoms, mapAtoms_id inner]
  | .block opening item closing => by
      rw [mapAtoms, mapAtoms_id opening, mapAtoms_id item, mapAtoms_id closing]
  | .list opening item separator closing => by
      rw [mapAtoms, mapAtoms_id opening, mapAtoms_id item, mapAtoms_id separator,
        mapAtoms_id closing]
  | .endOfInput | .backref _ | .rule _ | .skip _ | .failAt _ => rfl

theorem mapAtomsAll_id : ∀ matchers : List (Matcher α τ ρ), mapAtomsAll id matchers = matchers
  | [] => rfl
  | matcher :: rest => by rw [mapAtomsAll, mapAtoms_id matcher, mapAtomsAll_id rest]

end

mutual

theorem validate_mapAtoms : ∀ matcher : Matcher α τ ρ,
    (matcher.mapAtoms key).validate = matcher.validate
  | .one kind => by rw [mapAtoms, validate, validate, kind.validate_map]
  | .literal atoms => by rw [mapAtoms, validate, validate, List.isEmpty_map]
  | .seq steps => by rw [mapAtoms, validate, validate, validateAll_mapAtoms steps]
  | .seqOpt steps => by rw [mapAtoms, validate, validate, validateAll_mapAtoms steps]
  | .choice alternatives => by rw [mapAtoms, validate, validate, validateAll_mapAtoms alternatives]
  | .nonEmpty inner | .star inner | .plus inner | .opt inner => by
      rw [mapAtoms, validate, validate, validate_mapAtoms inner]
  | .ahead inner | .notAhead inner | .upTo inner => by
      rw [mapAtoms, validate, validate, validate_mapAtoms inner]
  | .times _ inner | .timesBetween _ _ inner => by
      rw [mapAtoms, validate, validate, validate_mapAtoms inner]
  | .store _ inner | .node _ _ inner | .promote inner => by
      rw [mapAtoms, validate, validate, validate_mapAtoms inner]
  | .block opening item closing => by
      rw [mapAtoms, validate, validate, validate_mapAtoms opening, validate_mapAtoms item,
        validate_mapAtoms closing]
  | .list opening item separator closing => by
      rw [mapAtoms, validate, validate, validate_mapAtoms opening, validate_mapAtoms item,
        validate_mapAtoms separator, validate_mapAtoms closing]
  | .endOfInput | .backref _ | .rule _ | .skip _ | .failAt _ => rfl

theorem validateAll_mapAtoms : ∀ matchers : List (Matcher α τ ρ),
    validateAll (mapAtomsAll key matchers) = validateAll matchers
  | [] => rfl
  | matcher :: rest => by
      rw [mapAtomsAll, validateAll, validateAll, validate_mapAtoms matcher,
        validateAll_mapAtoms rest]

end

end Matcher

def Grammar.mapAtoms (key : α → β) (grammar : Grammar α τ ρ) : Grammar β τ ρ :=
  fun name => (grammar name).mapAtoms key

theorem Grammar.mapAtoms_id (grammar : Grammar α τ ρ) : grammar.mapAtoms id = grammar :=
  funext fun name => (grammar name).mapAtoms_id

namespace Window

def map (key : α → β) (window : Window α) : Window β :=
  ⟨window.source.map key, window.limit⟩

theorem map_id (window : Window α) : window.map id = window := by
  rw [map, Array.map_id]

theorem peek?_map (window : Window α) (cursor : Nat) :
    (window.map key).peek? cursor = (window.peek? cursor).map key := by
  simp only [peek?, map, Array.getElem?_map]
  split <;> rfl

end Window

theorem slice_map (source : Array α) (start stop : Nat) :
    slice (source.map key) start stop = (slice source start stop).map (Array.map key) := by
  simp only [slice, Array.size_map]
  split
  · rw [← Array.map_extract]
    rfl
  · rfl

end PegForest
