import IncrementalLisp.Host.Standard
import IncrementalLisp.Proofs.Host.Honest
import Mathlib.Data.List.Nodup

/-! The standard host is sound and honest. Nearly all of its members return plain values; those of
collections return parts of their arguments.
-/

namespace IncrementalLisp

namespace Host

variable {N : Nat}

/-- (Plainly x) says that a value, if one results, is plain. -/
def Plainly (x : Except Fault Value)
    : Prop :=
  ∀ v, x = .ok v → v.isPlain

/-- A plain value is given plainly. -/
theorem Plainly.ok {v : Value} (plain : v.isPlain)
    : Plainly (.ok v) := by
  rintro _ ⟨⟩
  exact plain

/-- A fault gives no value. -/
theorem Plainly.error {fault : Fault}
    : Plainly (.error fault) := by
  rintro _ ⟨⟩

/-- A function of what another one gives is plain if all that it gives is. -/
theorem Plainly.bind {α : Type} {x : Except Fault α} {f : α → Except Fault Value}
    (rest : ∀ a, Plainly (f a))
    : Plainly (x >>= f) := by
  intro v ran
  obtain ⟨a, _, ran⟩ := ok_of_bind ran
  exact rest a v ran

-----------------------------------------------------------------------------------------
-- Types with their members
-----------------------------------------------------------------------------------------

/-- (Keeps run) says that what a member returns refers to no more than its arguments. -/
def Keeps (run : List Value → Except Fault Value)
    : Prop :=
  ∀ (N : Nat) (args : List Value), Among (· < N) (contextsOfAll args) → Gives N (run args)

/-- A plain function of one argument keeps the references of its arguments: it gives none. -/
theorem Keeps.unary {run : Value → Except Fault Value} (plain : ∀ a, Plainly (run a))
    : Keeps (unary run) := by
  intro N args _
  unfold Host.unary
  split
  · exact .plain (plain _)
  · exact .error

/-- A function of two arguments keeps them if it refers to no more than the first one does. -/
theorem Keeps.binary {run : Value → Value → Except Fault Value}
    (gives : ∀ (N : Nat) (a b : Value), Among (· < N) a.contexts → Gives N (run a b))
    : Keeps (binary run) := by
  intro N args older
  unfold Host.binary
  split
  · rw [contextsOfAll, among_append] at older
    exact gives N _ _ older.1
  · exact .error

/-- A plain function of three arguments keeps them. -/
theorem Keeps.ternary {run : Value → Value → Value → Except Fault Value}
    (plain : ∀ a b c, Plainly (run a b c))
    : Keeps (ternary run) := by
  intro N args _
  unfold Host.ternary
  split
  · exact .plain (plain _ _ _)
  · exact .error

/-- A part of a text is plain. -/
theorem plainly_substring (text : String) (start : Nat) (stop? : Option Nat)
    : Plainly (substring text start stop?) := by
  unfold substring
  dsimp only
  split
  · exact .error
  · exact .ok rfl

/-- A test of two texts is plain, since it gives a truth. -/
theorem plainly_textTest (test : List Char → List Char → Bool) (target part : Value)
    : Plainly (textTest test target part) :=
  .bind fun _ => .bind fun _ => .ok rfl

/-- A plain function of two arguments keeps the references of its arguments. -/
theorem Keeps.binaryPlain {run : Value → Value → Except Fault Value}
    (plain : ∀ a b, Plainly (run a b))
    : Keeps (Host.binary run) :=
  .binary fun _ a b _ => .plain (plain a b)

/-- A parsed number is plain. -/
theorem plainly_parseLong (v : Value)
    : Plainly (parseLong v) := by
  apply Plainly.bind
  intro text
  split
  · exact .ok rfl
  · exact .error

/-- An extreme is plain, since it is a number. -/
theorem plainly_choose (firstWins : Number.Double → Number.Double → Bool) (a b : Value)
    : Plainly (choose firstWins a b) := by
  unfold choose
  split
  · exact .ok rfl
  · exact .bind fun _ => .bind fun _ => .ok rfl

/-- An item of a list or a vector is a part of it. -/
theorem gives_getElem? {items : List Value} {i : Nat} (parts : Among (· < N) (contextsOfAll items))
    : Gives N (match items[i]? with
        | some item => (.ok item : Except Fault Value)
        | none => .error (.outOfBounds i)) := by
  split
  · rename_i found
    exact .ok (among_getElem? parts found)
  · exact .error

/-- The item at an index refers to what its sequence does. -/
theorem gives_itemAt {target index : Value} (older : Among (· < N) target.contexts)
    : Gives N (itemAt target index) := by
  intro v ran
  obtain ⟨i, _, ran⟩ := ok_of_bind ran
  cases target with
  | list items source => exact gives_getElem? older v ran
  | vector items => exact gives_getElem? older v ran
  | _ => cases ran

/-- The value of a key is a part of the map. -/
theorem among_found {entries : List (Value × Value)} {key : Value}
    (older : Among (· < N) (contextsOfEntries entries))
    : Among (· < N) ((Value.entry? entries key).getD .nil).contexts := by
  cases found : Value.entry? entries key with
  | none => exact among_nil
  | some v =>
      obtain ⟨e, listed, rfl⟩ := Option.map_eq_some_iff.mp found
      exact (among_contextsOfEntries.mp older e (List.mem_of_find?_eq_some listed)).2

/-- A type with a size is honest if the type is, since the size is a number. -/
theorem honest_withSize {t : HostType} (honest : t.Honest)
    : (withSize t).Honest := by
  unfold withSize
  apply HostType.All.withInstance
  apply HostType.All.withInstance honest
  · exact Keeps.unary fun _ => .bind fun _ => .ok rfl
  · exact Keeps.unary fun _ => .bind fun _ => .ok rfl

/-- Lists and vectors are honest, by their items. -/
theorem honest_sequentialType (name : String) (isInstance : Value → Bool)
    : (sequentialType name isInstance).Honest := by
  unfold sequentialType
  apply HostType.All.withInstance
  apply HostType.All.withInstance (honest_withSize (.plain _ _))
  · exact Keeps.binary fun _ _ _ => gives_itemAt
  · exact Keeps.binaryPlain fun _ _ => .ok rfl

/-- Maps are honest: a value that is found is one of an entry. -/
theorem honest_mapType
    : mapType.Honest := by
  unfold mapType
  apply HostType.All.withInstance
  apply HostType.All.withInstance (honest_withSize (.plain _ _))
  · refine Keeps.binary fun N target key older => ?_
    split
    · exact .ok (among_found older)
    · exact .error
  · refine Keeps.binaryPlain fun _ _ => ?_
    split
    · exact .ok rfl
    · exact .error

/-- Sets are honest, since they only tell whether an item is in them. -/
theorem honest_setType
    : setType.Honest := by
  unfold setType
  apply HostType.All.withInstance (honest_withSize (.plain _ _))
  refine Keeps.binaryPlain fun _ _ => ?_
  split
  · exact .ok rfl
  · exact .error

/-- The types of the standard host are honest. Witness: type by type and member by member, where
all members return plain values but those that take items from collections.
-/
theorem honest_of_mem_standardTypes {digest : Digest} {t : HostType}
    (listed : t ∈ standardTypes digest)
    : t.Honest := by
  simp only [standardTypes, List.mem_cons, List.not_mem_nil, or_false] at listed
  rcases listed with rfl | rfl | rfl | rfl | rfl | rfl | rfl | rfl | rfl | rfl | rfl | rfl | rfl
  case inr.inr.inr.inr.inr.inr.inr.inl => exact honest_sequentialType _ _
  case inr.inr.inr.inr.inr.inr.inr.inr.inl => exact honest_sequentialType _ _
  case inr.inr.inr.inr.inr.inr.inr.inr.inr.inl => exact honest_mapType
  case inr.inr.inr.inr.inr.inr.inr.inr.inr.inr.inl => exact honest_setType
  all_goals
    first
    | unfold stringType
    | unfold longType
    | unfold doubleType
    | unfold booleanType
    | unfold characterType
    | unfold identifierType
    | unfold mathType floatFunction
    | unfold objectType
    repeat'
      first
      | apply HostType.All.withInstance
      | apply HostType.All.withStatic
      | exact HostType.All.plain _ _
  all_goals
    change Keeps _
    first
    | with_reducible apply Keeps.unary
    | with_reducible apply Keeps.binaryPlain
    | with_reducible apply Keeps.ternary
    intros
  all_goals
    repeat'
      first
      | with_reducible apply plainly_substring
      | with_reducible apply plainly_textTest
      | with_reducible apply plainly_parseLong
      | with_reducible apply plainly_choose
      | with_reducible apply Plainly.bind
      | with_reducible apply Plainly.error
      | with_reducible apply Plainly.ok
      | rfl
      | split
      | intro _

/-- The names of registered types differ: a type takes the place of one of its name. -/
theorem distinct_replaceType {t : HostType} {types : List HostType}
    (distinct : (types.map (·.name)).Nodup)
    : ((replaceType t types).map (·.name)).Nodup := by
  induction types with
  | nil => exact List.nodup_singleton _
  | cons other rest ih =>
      rw [List.map_cons, List.nodup_cons] at distinct
      unfold replaceType
      split
      · rename_i same
        rw [List.map_cons, List.nodup_cons, ← eq_of_beq same]
        exact distinct
      · rename_i differ
        rw [List.map_cons, List.nodup_cons]
        refine ⟨?_, ih distinct.2⟩
        intro member
        obtain ⟨u, listed, named⟩ := List.mem_map.mp member
        rcases mem_of_replaceType listed with rfl | old
        · exact differ (beq_iff_eq.mpr named.symm)
        · exact distinct.1 (List.mem_map.mpr ⟨u, old, named⟩)

/-- A host without cache whose types have different names is sound. -/
theorem Sound.of_nodup {h : Host} (distinct : (h.types.map (·.name)).Nodup) (fresh : h.cache = [])
    : h.Sound where
  distinct := fun t known u listed named => List.inj_on_of_nodup_map distinct known listed named
  cached := by
    intro key m found
    rw [fresh] at found
    cases found

/-- Registering types one after the other gives a host that is sound, and honest if the types are.
-/
theorem registered (types : List HostType) {h : Host} (distinct : (h.types.map (·.name)).Nodup)
    (fresh : h.cache = []) (honest : h.Honest) (all : ∀ t ∈ types, t.Honest)
    : (types.foldl register h).Sound ∧ (types.foldl register h).Honest := by
  induction types generalizing h with
  | nil => exact ⟨.of_nodup distinct fresh, honest⟩
  | cons t rest ih =>
      refine ih (distinct_replaceType distinct) rfl ?_ fun u listed =>
        all u (List.mem_cons_of_mem _ listed)
      intro u listed
      rcases mem_of_replaceType listed with rfl | old
      · exact all u List.mem_cons_self
      · exact honest u old

/-- The standard host is sound and honest. -/
theorem standard_sound_honest {digest : Digest}
    : (standard digest).Sound ∧ (standard digest).Honest :=
  registered (standardTypes digest) List.nodup_nil rfl (fun _ absent =>
    absurd absent List.not_mem_nil)
    fun _ => honest_of_mem_standardTypes

end Host
end IncrementalLisp
