import IncrementalLisp.Proofs.Host.Sound

/-! What holds of all members of the types of a host holds of every member that a call selects.
-/

namespace IncrementalLisp

variable {p : Member → Prop}

/-- A table of members that all have a property. -/
def MemberTable.All (p : Member → Prop) (table : MemberTable)
    : Prop :=
  ∀ entry ∈ table, ∀ m ∈ entry.2, p m

/-- A type whose members all have a property. -/
structure HostType.All (p : Member → Prop) (t : HostType) : Prop where
  instanceMembers : t.instanceMembers.All p
  staticMembers : t.staticMembers.All p

/-- The selected member of a table has what all of its members have. -/
theorem MemberTable.All.of_select? {table : MemberTable} (all : table.All p) {name : String}
    {count : Nat} {m : Member} (selected : table.select? name count = some m)
    : p m := by
  obtain ⟨overloads, found, chosen⟩ := Option.bind_eq_some_iff.mp selected
  obtain ⟨before, after, split, _⟩ := List.lookup_eq_some_iff.mp found
  have listed : (name, overloads) ∈ table := by simp [split]
  rcases Option.or_eq_some_iff.mp chosen with exact' | ⟨_, any⟩
  · exact all _ listed m (List.mem_of_find?_eq_some exact')
  · exact all _ listed m (List.mem_of_find?_eq_some any)

/-- So has the selected member of a host's type, of its own or of the root of all types. -/
theorem Host.all_of_member? {h : Host} (all : ∀ t ∈ h.types, t.All p) {t : HostType}
    (known : t ∈ h.types) {name : String} {count : Nat} {dispatch : Dispatch} {m : Member}
    (selected : h.member? t name count dispatch = some m)
    : p m := by
  cases dispatch with
  | onType => exact (all t known).staticMembers.of_select? selected
  | onInstance =>
      rcases Option.or_eq_some_iff.mp selected with own | ⟨_, inherited⟩
      · exact (all t known).instanceMembers.of_select? own
      · obtain ⟨root, found, chosen⟩ := Option.bind_eq_some_iff.mp inherited
        exact (all root (mem_of_type? found)).instanceMembers.of_select? chosen

-----------------------------------------------------------------------------------------
-- Building types
-----------------------------------------------------------------------------------------

/-- A table with one more member has all that its members have, if that one has it. Witness:
induction on the table.
-/
theorem MemberTable.All.add {table : MemberTable} (all : table.All p) (name : String) {m : Member}
    (added : p m)
    : (table.add name m).All p := by
  induction table with
  | nil => simpa [MemberTable.add, MemberTable.All] using added
  | cons entry rest ih =>
      obtain ⟨other, overloads⟩ := entry
      have first := all _ List.mem_cons_self
      have others : MemberTable.All p rest := fun e listed => all e (List.mem_cons_of_mem _ listed)
      unfold MemberTable.add
      split
      · intro e listed
        rcases List.mem_cons.mp listed with rfl | later
        · intro m' member
          rcases List.mem_append.mp member with old | new
          · exact first m' old
          · rw [List.mem_singleton.mp new]
            exact added
        · exact others e later
      · intro e listed
        rcases List.mem_cons.mp listed with rfl | later
        · exact first
        · exact ih others e later

namespace HostType.All

/-- A type without members has whatever all of its members are to have. -/
theorem plain (name : String) (isInstance : Value → Bool)
    : (HostType.plain name isInstance).All p :=
  ⟨fun _ absent => absurd absent List.not_mem_nil, fun _ absent => absurd absent List.not_mem_nil⟩

/-- One more instance member keeps what all members have, if it has that. -/
theorem withInstance {t : HostType} (all : t.All p) (name : String) (arity? : Option Nat)
    {run : List Value → Except Fault Value}
    (added : p ⟨t.name ++ "." ++ name, arity?.map (· + 1), run⟩)
    : (t.withInstance name arity? run).All p :=
  ⟨all.instanceMembers.add name added, all.staticMembers⟩

/-- So does one more static member. -/
theorem withStatic {t : HostType} (all : t.All p) (name : String) (arity? : Option Nat)
    {run : List Value → Except Fault Value} (added : p ⟨t.name ++ "/" ++ name, arity?, run⟩)
    : (t.withStatic name arity? run).All p :=
  ⟨all.instanceMembers, all.staticMembers.add name added⟩

end HostType.All

/-- Registering keeps to the types that are there and the one added. -/
theorem Host.mem_of_replaceType {t u : HostType} {types : List HostType}
    (listed : u ∈ replaceType t types)
    : u = t ∨ u ∈ types := by
  induction types with
  | nil => exact Or.inl (List.mem_singleton.mp listed)
  | cons other rest ih =>
      unfold replaceType at listed
      split at listed
      · exact (List.mem_cons.mp listed).imp id (List.mem_cons_of_mem _)
      · rcases List.mem_cons.mp listed with rfl | later
        · exact Or.inr List.mem_cons_self
        · exact (ih later).imp id (List.mem_cons_of_mem _)

end IncrementalLisp
