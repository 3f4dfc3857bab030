import IncrementalLisp.Host.Basic
import Mathlib.Data.List.Basic

/-! The cache of a host. A call changes a host only by remembering the member that the tables
select, so where types have different names the answers never depend on what was asked before.
-/

namespace IncrementalLisp

namespace Host

/-- (h.Next later) says that the later host is the same, or has looked for one member more. -/
def Next (h later : Host)
    : Prop :=
  later = h ∨ ∃ t ∈ h.types, ∃ name count dispatch, later = (h.resolve t name count dispatch).2

/-- A host whose types have different names and whose cache holds what the tables select. -/
structure Sound (h : Host) : Prop where
  distinct : ∀ t ∈ h.types, ∀ u ∈ h.types, t.name = u.name → t = u
  cached
    : ∀ {key : MemberKey} {m : Member}, h.cache.lookup key = some m
        → ∀ t ∈ h.types, t.name = key.type
        → h.member? t key.member key.count key.dispatch = some m

variable {h later : Host} {t : HostType} {name : String} {count : Nat} {dispatch : Dispatch}

/-- A type that is found by its name is one of the host's. -/
theorem mem_of_type? (found : h.type? name = some t)
    : t ∈ h.types :=
  List.mem_of_find?_eq_some found

/-- So is the type of a value, an own one or the root of all types. -/
theorem mem_of_typeOf? {v : Value} (found : h.typeOf? v = some t)
    : t ∈ h.types := by
  unfold typeOf? at found
  rcases Option.or_eq_some_iff.mp found with typed | ⟨_, root⟩
  · exact List.mem_of_find?_eq_some typed
  · exact mem_of_type? (Option.filter_eq_some_iff.mp root).1

/-- An answer for a member of a value leaves the host as it was or resolves one member. -/
theorem next_invoke (h : Host) (target : Value) (member : String) (args : List Value)
    : h.Next (h.invoke target member args).2 := by
  unfold invoke
  split
  · exact Or.inl rfl
  · rename_i t found
    have resolved : h.Next (h.resolve t member (args.length + 1) .onInstance).2 :=
      Or.inr ⟨t, mem_of_typeOf? found, _, _, _, rfl⟩
    split <;> rename_i step <;> rw [step] at resolved <;> exact resolved

/-- So does an answer for a member of a type. -/
theorem next_invokeStatic (h : Host) (type member : String) (args : List Value)
    : h.Next (h.invokeStatic type member args).2 := by
  unfold invokeStatic
  split
  · exact Or.inl rfl
  · rename_i t found
    have resolved : h.Next (h.resolve t member args.length .onType).2 :=
      Or.inr ⟨t, mem_of_type? found, _, _, _, rfl⟩
    split <;> rename_i step <;> rw [step] at resolved <;> exact resolved

/-- To resolve a member changes the cache and no types. -/
theorem types_resolve
    : (h.resolve t name count dispatch).2.types = h.types := by
  unfold resolve
  dsimp only
  split
  · rfl
  · split <;> rfl

/-- A host's next state has the same types. -/
theorem Next.types (next : h.Next later)
    : later.types = h.types := by
  rcases next with rfl | ⟨t, _, name, count, dispatch, rfl⟩
  · rfl
  · exact types_resolve

/-- What the tables select depends on the types alone. -/
theorem member?_congr (same : later.types = h.types)
    : later.member? t name count dispatch = h.member? t name count dispatch := by
  unfold member? type?
  rw [same]

/-- In a sound host the search finds what the tables select, cached or not. -/
theorem Sound.resolve_fst (sound : h.Sound) (known : t ∈ h.types) (name : String) (count : Nat)
    (dispatch : Dispatch)
    : (h.resolve t name count dispatch).1 = h.member? t name count dispatch := by
  unfold resolve
  dsimp only
  split
  · rename_i m cached
    exact (sound.cached cached t known rfl).symm
  · split
    · rename_i selected
      exact selected.symm
    · rename_i none
      exact none.symm

/-- Looking for a member keeps a host sound. -/
theorem Sound.next (sound : h.Sound) (next : h.Next later)
    : later.Sound := by
  rcases next with rfl | ⟨t, known, name, count, dispatch, rfl⟩
  · exact sound
  have distinct : ∀ u ∈ (h.resolve t name count dispatch).2.types,
      ∀ w ∈ (h.resolve t name count dispatch).2.types, u.name = w.name → u = w := by
    rw [types_resolve]
    exact sound.distinct
  refine ⟨distinct, ?_⟩
  intro key m cached u listed named
  rw [types_resolve] at listed
  rw [member?_congr types_resolve]
  unfold resolve at cached
  dsimp only at cached
  split at cached
  · exact sound.cached cached u listed named
  · split at cached
    · rename_i found selected
      rw [List.lookup_cons] at cached
      split at cached
      · rename_i same
        obtain rfl : key = ⟨t.name, name, count, dispatch⟩ := by simpa using same
        obtain rfl := sound.distinct u listed t known named
        rw [← Option.some.inj cached]
        exact selected
      · exact sound.cached cached u listed named
    · exact sound.cached cached u listed named

/-- What a host answers to a call on a value, by the member that it finds. -/
theorem invoke_fst (h : Host) (target : Value) (member : String) (args : List Value)
    : (h.invoke target member args).1
      = match h.typeOf? target with
        | none => .error (.call (.noReceiver member target))
        | some t =>
            match (h.resolve t member (args.length + 1) .onInstance).1 with
            | some m => m.call (target :: args)
            | none => .error (.call (.noMember t.name member args.length)) := by
  unfold invoke
  cases h.typeOf? target with
  | none => rfl
  | some t =>
      dsimp only
      rcases h.resolve t member (args.length + 1) .onInstance with ⟨_ | m, after⟩ <;> rfl

/-- What a host answers to a call on a type, by the member that it finds. -/
theorem invokeStatic_fst (h : Host) (type member : String) (args : List Value)
    : (h.invokeStatic type member args).1
      = match h.type? type with
        | none => .error (.call (.unknownType type))
        | some t =>
            match (h.resolve t member args.length .onType).1 with
            | some m => m.call args
            | none => .error (.call (.noStaticMember type member args.length)) := by
  unfold invokeStatic
  cases h.type? type with
  | none => rfl
  | some t =>
      dsimp only
      rcases h.resolve t member args.length .onType with ⟨_ | m, after⟩ <;> rfl

/-- What a sound host answers to a call on a value, by its tables alone. -/
theorem Sound.answer_on_value (sound : h.Sound) (target : Value) (member : String)
    (args : List Value)
    : (h.invoke target member args).1
      = match h.typeOf? target with
        | none => .error (.call (.noReceiver member target))
        | some t =>
            match h.member? t member (args.length + 1) .onInstance with
            | some m => m.call (target :: args)
            | none => .error (.call (.noMember t.name member args.length)) := by
  rw [invoke_fst]
  cases found : h.typeOf? target with
  | none => rfl
  | some t =>
      dsimp only
      rw [sound.resolve_fst (mem_of_typeOf? found)]

/-- What a sound host answers to a call on a type, by its tables alone. -/
theorem Sound.answer_on_type (sound : h.Sound) (type member : String) (args : List Value)
    : (h.invokeStatic type member args).1
      = match h.type? type with
        | none => .error (.call (.unknownType type))
        | some t =>
            match h.member? t member args.length .onType with
            | some m => m.call args
            | none => .error (.call (.noStaticMember type member args.length)) := by
  rw [invokeStatic_fst]
  cases found : h.type? type with
  | none => rfl
  | some t =>
      dsimp only
      rw [sound.resolve_fst (mem_of_type? found)]

/-- Sound hosts of the same types give the same answers. -/
theorem Sound.same_answer_on_value (sound : h.Sound) (other : later.Sound)
    (same : later.types = h.types) (target : Value) (member : String) (args : List Value)
    : (later.invoke target member args).1 = (h.invoke target member args).1 := by
  have typed : later.typeOf? target = h.typeOf? target := by
    unfold typeOf? type?
    rw [same]
  rw [sound.answer_on_value, other.answer_on_value, typed]
  simp only [member?_congr same]

/-- Sound hosts of the same types answer alike for members of types, since both answer as afresh. -/
theorem Sound.same_answer_on_type (sound : h.Sound) (other : later.Sound)
    (same : later.types = h.types) (type member : String) (args : List Value)
    : (later.invokeStatic type member args).1 = (h.invokeStatic type member args).1 := by
  have typed : later.type? type = h.type? type := by
    unfold type?
    rw [same]
  rw [sound.answer_on_type, other.answer_on_type, typed]
  simp only [member?_congr same]

/-- What is an instance of a type, and what a value is cast to, depends on the types alone. -/
theorem isInstance_congr (same : later.types = h.types) (type : String) (v : Value)
    : later.isInstance type v = h.isInstance type v := by
  unfold isInstance type?
  rw [same]

/-- Hosts of the same types cast alike. -/
theorem cast_congr (same : later.types = h.types) (type : String) (v : Value)
    : later.cast type v = h.cast type v := by
  unfold cast
  rw [isInstance_congr same]

end Host
end IncrementalLisp
