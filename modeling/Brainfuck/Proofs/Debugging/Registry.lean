import Brainfuck.Breakpoints.Registry
import Brainfuck.Proofs.Debugging.Reloading
import Mathlib.Data.List.Induction
import Mathlib.Data.List.Sort

/-! What a registry holds.
A registry holds a created breakpoint at each of its addresses. By value that is what a debugger
keeps: doing something to a registry and then looking at what it holds is as good as doing it to
what it held before.
-/

namespace Brainfuck

/-- Where no two entries have one key, whatever has a key is found by it. -/
theorem find?_key_eq_some {α : Type} {key : α → Int} {entries : List α}
    (distinct : (entries.map key).Nodup) {place : Int} {entry : α}
    : (entries.find? fun other => key other = place) = some entry
      ↔ entry ∈ entries ∧ key entry = place := by
  constructor
  · intro found
    exact ⟨List.mem_of_find?_eq_some found, by simpa using List.find?_some found⟩
  · rintro ⟨member, rfl⟩
    cases found : entries.find? fun other => key other = key entry with
    | none => exact absurd (decide_eq_true rfl) (List.find?_eq_none.mp found _ member)
    | some other =>
        have same : key other = key entry := by simpa using List.find?_some found
        rw [List.inj_on_of_nodup_map distinct (List.mem_of_find?_eq_some found) member same]

namespace Breakpoints

/-- Breakpoints in order are the same when they have the same members, because no two of them have
one address.
-/
theorem Ordered.eq_of_mem_iff {entries others : List Breakpoint} (h : Ordered entries)
    (also : Ordered others) (same : ∀ entry, entry ∈ entries ↔ entry ∈ others)
    : entries = others := by
  have : Std.Irrefl fun left right : Breakpoint => left.address < right.address :=
    ⟨fun entry => Int.lt_irrefl entry.address⟩
  have : Std.Antisymm fun left right : Breakpoint => left.address < right.address :=
    ⟨fun left right below above => absurd above (Int.not_lt.mpr (Int.le_of_lt below))⟩
  exact List.Pairwise.eq_of_mem_iff h also same

/-- In order, whatever stands at an address is found there. -/
theorem Proper.find?_eq_some {breakpoints : Breakpoints} (h : Proper breakpoints.entries)
    {address : Int} {breakpoint : Breakpoint}
    : breakpoints.find? address = some breakpoint
      ↔ breakpoint ∈ breakpoints.entries ∧ breakpoint.address = address := by
  have distinct : (breakpoints.entries.map Breakpoint.address).Nodup :=
    List.Pairwise.map _ (fun _ _ => Int.ne_of_lt) h.ordered
  exact find?_key_eq_some distinct

end Breakpoints

namespace Registry

variable {registry : Registry}

-----------------------------------------------------------------------------------------
-- Holding created breakpoints
-----------------------------------------------------------------------------------------

/-- A registry that was built by its operations: it holds one breakpoint at an address, which was
created for that address.
-/
structure Proper (registry : Registry) : Prop where
  distinct : (registry.held.map Prod.fst).Nodup
  placed
    : ∀ entry ∈ registry.held,
        0 ≤ entry.1
        ∧ ∃ breakpoint,
            registry.created[entry.2]? = some breakpoint ∧ breakpoint.address = entry.1

theorem Proper.find?_eq_some (h : registry.Proper) {address : Int} {number : Nat}
    : registry.find? address = some number ↔ (address, number) ∈ registry.held := by
  unfold find?
  rw [Option.map_eq_some_iff]
  constructor
  · rintro ⟨⟨place, _⟩, found, rfl⟩
    obtain ⟨member, rfl⟩ := (find?_key_eq_some h.distinct).mp found
    exact member
  · intro member
    exact ⟨_, (find?_key_eq_some h.distinct).mpr ⟨member, rfl⟩, rfl⟩

/-- What is held at an address was created for it. -/
theorem Proper.exists_created (h : registry.Proper) {address : Int} {number : Nat}
    (held : registry.find? address = some number)
    : 0 ≤ address
      ∧ ∃ breakpoint,
          registry.created[number]? = some breakpoint ∧ breakpoint.address = address :=
  h.placed _ (h.find?_eq_some.mp held)

theorem not_mem_addresses_of_find?_eq_none {address : Int}
    (absent : registry.find? address = none)
    : address ∉ registry.held.map Prod.fst := by
  intro member
  obtain ⟨entry, held, rfl⟩ := List.mem_map.mp member
  simpa using List.find?_eq_none.mp (Option.map_eq_none_iff.mp absent) entry held

theorem contains_eq_false_iff {address : Int}
    : registry.contains address = false ↔ registry.find? address = none :=
  Option.isSome_eq_false_iff.trans Option.isNone_iff_eq_none

-----------------------------------------------------------------------------------------
-- What operations preserve
-----------------------------------------------------------------------------------------

theorem Proper.empty : ({} : Registry).Proper where
  distinct := List.nodup_nil
  placed := nofun

/-- Creating another breakpoint leaves the others where they are. -/
theorem Proper.create (h : registry.Proper) (breakpoint : Breakpoint)
    : (registry.create breakpoint).Proper where
  distinct := h.distinct
  placed entry member := by
    obtain ⟨inside, other, created, here⟩ := h.placed entry member
    obtain ⟨lt, _⟩ := List.getElem?_eq_some_iff.mp created
    exact ⟨inside, other, (List.getElem?_append_left lt).trans created, here⟩

/-- A breakpoint is added at an address that is not negative and has none yet. -/
theorem add_eq {number : Nat} {breakpoint : Breakpoint}
    (created : registry.created[number]? = some breakpoint)
    (inside : 0 ≤ breakpoint.address) (new : registry.find? breakpoint.address = none)
    : registry.add number
      = (.ok (), { registry with held := registry.held ++ [(breakpoint.address, number)] }) := by
  simp only [add, created, Int.not_lt.mpr inside, contains_eq_false_iff.mpr new,
    Bool.false_eq_true, if_false]

/-- An addition is refused at a negative address, and where a breakpoint is held already. -/
theorem exists_add_eq_error {number : Nat} {breakpoint : Breakpoint}
    (created : registry.created[number]? = some breakpoint)
    (unfit : breakpoint.address < 0 ∨ registry.find? breakpoint.address ≠ none)
    : ∃ cause ∈ [Fault.negativeBreakpoint breakpoint, .duplicateBreakpoint breakpoint],
        registry.add number = (.error cause.raised, registry) := by
  by_cases negative : breakpoint.address < 0
  · refine ⟨.negativeBreakpoint breakpoint, by simp, ?_⟩
    simp only [add, created, negative, if_true]
  · have present : registry.contains breakpoint.address = true :=
      Option.isSome_iff_ne_none.mpr (unfit.resolve_left negative)
    refine ⟨.duplicateBreakpoint breakpoint, by simp, ?_⟩
    simp only [add, created, negative, present, if_false, if_true]

theorem Proper.add (h : registry.Proper) {number : Nat} {breakpoint : Breakpoint}
    (created : registry.created[number]? = some breakpoint)
    (inside : 0 ≤ breakpoint.address) (new : registry.find? breakpoint.address = none)
    : Proper { registry with held := registry.held ++ [(breakpoint.address, number)] } where
  distinct := by
    rw [List.map_append, List.nodup_append]
    refine ⟨h.distinct, List.nodup_singleton _, ?_⟩
    rintro address before _ last rfl
    obtain rfl := List.mem_singleton.mp last
    exact not_mem_addresses_of_find?_eq_none new before
  placed entry member := by
    rcases List.mem_append.mp member with before | last
    · exact h.placed entry before
    · obtain rfl := List.mem_singleton.mp last
      exact ⟨inside, breakpoint, created, rfl⟩

theorem Proper.remove (h : registry.Proper) (address : Int)
    : Proper { registry with held := registry.held.filter fun entry => entry.1 ≠ address } where
  distinct := h.distinct.sublist (List.filter_sublist.map Prod.fst)
  placed entry member := h.placed entry (List.mem_filter.mp member).1

/-- A removal keeps what is held at other addresses. -/
theorem Proper.find?_remove (h : registry.Proper) {address place : Int} {number : Nat}
    : find? { registry with held := registry.held.filter fun entry => entry.1 ≠ address } place
        = some number
      ↔ registry.find? place = some number ∧ place ≠ address := by
  rw [(h.remove address).find?_eq_some, h.find?_eq_some, List.mem_filter, decide_eq_true_eq]

/-- Turning a switch changes the breakpoint under its number and no other. -/
theorem created_switch (registry : Registry) (number : Nat) (enabled : Bool) (other : Nat)
    : (registry.switch number enabled).created[other]?
      = registry.created[other]?.map fun breakpoint =>
          if other = number then { breakpoint with enabled } else breakpoint := by
  rw [switch, List.getElem?_modify]
  by_cases same : number = other
  · subst same
    simp
  · simp [same, Ne.symm same]

theorem Proper.switch (h : registry.Proper) (number : Nat) (enabled : Bool)
    : (registry.switch number enabled).Proper where
  distinct := h.distinct
  placed entry member := by
    obtain ⟨inside, breakpoint, created, here⟩ := h.placed entry member
    refine ⟨inside, _, (created_switch registry number enabled entry.2).trans
      (congrArg _ created), ?_⟩
    simp only
    split <;> exact here

-----------------------------------------------------------------------------------------
-- The breakpoints by value
-----------------------------------------------------------------------------------------

theorem sorted_append (breakpoints : List Breakpoint) (last : Breakpoint)
    : sorted (breakpoints ++ [last]) = Breakpoints.insertOrdered last (sorted breakpoints) := by
  simp [sorted]

/-- Sorting keeps the members, by induction from the end. -/
theorem mem_sorted {breakpoints : List Breakpoint} {breakpoint : Breakpoint}
    : breakpoint ∈ sorted breakpoints ↔ breakpoint ∈ breakpoints := by
  induction breakpoints using List.reverseRecOn with
  | nil => rfl
  | append_singleton before last ih =>
      rw [sorted_append, Breakpoints.mem_insertOrdered, ih, List.mem_append, List.mem_singleton,
        or_comm]

/-- Sorting brings distinct addresses in order, by induction from the end. -/
theorem ordered_sorted {breakpoints : List Breakpoint}
    (distinct : (breakpoints.map Breakpoint.address).Nodup)
    : Breakpoints.Ordered (sorted breakpoints) := by
  induction breakpoints using List.reverseRecOn with
  | nil => exact List.Pairwise.nil
  | append_singleton before last ih =>
      rw [List.map_append, List.nodup_append] at distinct
      obtain ⟨others, _, apart⟩ := distinct
      rw [sorted_append]
      refine (ih others).insertOrdered fun entry member => ?_
      have earlier : entry.address ∈ before.map Breakpoint.address :=
        List.mem_map.mpr ⟨entry, mem_sorted.mp member, rfl⟩
      exact apart _ earlier _ (by simp)

/-- What is held at an address, by value. -/
theorem Proper.mem_values (h : registry.Proper) {breakpoint : Breakpoint}
    : breakpoint ∈ registry.values.entries
      ↔ ∃ number,
          registry.find? breakpoint.address = some number
          ∧ registry.created[number]? = some breakpoint := by
  rw [values, mem_sorted, List.mem_filterMap]
  constructor
  · rintro ⟨⟨address, number⟩, member, created⟩
    obtain ⟨_, other, found, here⟩ := h.placed _ member
    obtain rfl := Option.some.inj (found.symm.trans created)
    exact ⟨number, here ▸ h.find?_eq_some.mpr member, created⟩
  · rintro ⟨number, held, created⟩
    exact ⟨_, h.find?_eq_some.mp held, created⟩

/-- What is held has the addresses that it is held at, by induction on the entries. -/
theorem map_address_held {created : List Breakpoint} {held : List (Int × Nat)}
    (placed
      : ∀ entry ∈ held,
          ∃ breakpoint, created[entry.2]? = some breakpoint ∧ breakpoint.address = entry.1)
    : (held.filterMap fun entry => created[entry.2]?).map Breakpoint.address
      = held.map Prod.fst := by
  induction held with
  | nil => rfl
  | cons first rest ih =>
      obtain ⟨⟨breakpoint, found, here⟩, others⟩ := List.forall_mem_cons.mp placed
      have shown := List.filterMap_cons_some (f := fun entry => created[entry.2]?) (l := rest) found
      rw [shown, List.map_cons, List.map_cons, ih others, here]

theorem Proper.proper_values (h : registry.Proper)
    : Breakpoints.Proper registry.values.entries where
  ordered := by
    apply ordered_sorted
    rw [map_address_held fun entry member => (h.placed entry member).2]
    exact h.distinct
  nonnegative breakpoint member := by
    obtain ⟨number, held, _⟩ := h.mem_values.mp member
    exact (h.exists_created held).1

/-- A registry holds what it held before, but for the breakpoints at one address. -/
theorem Proper.values_eq (h : registry.Proper) {breakpoints : Breakpoints}
    (proper : Breakpoints.Proper breakpoints.entries)
    (same
      : ∀ breakpoint,
          breakpoint ∈ breakpoints.entries
          ↔ ∃ number,
              registry.find? breakpoint.address = some number
              ∧ registry.created[number]? = some breakpoint)
    (interrupted : registry.interrupted = breakpoints.interrupted)
    : registry.values = breakpoints := by
  have entries : registry.values.entries = breakpoints.entries :=
    h.proper_values.ordered.eq_of_mem_iff proper.ordered fun breakpoint =>
      h.mem_values.trans (same breakpoint).symm
  obtain ⟨_, _⟩ := breakpoints
  exact congrArg₂ Breakpoints.mk entries interrupted

/-- A registry and what it holds do the same. -/
structure ByValue (registry : Registry) : Prop where
  find?
    : ∀ address,
        registry.values.find? address
        = (registry.find? address).bind fun number => registry.created[number]?
  add
    : ∀ number breakpoint,
        registry.created[number]? = some breakpoint
        → registry.values.add breakpoint
          = (registry.add number).1.map fun _ => (registry.add number).2.values
  remove
    : ∀ address,
        (registry.values.remove address).map (Prod.map some id)
        = (registry.remove address).1.map fun number =>
            (registry.created[number]?, (registry.remove address).2.values)
  switch
    : ∀ number breakpoint enabled,
        registry.created[number]? = some breakpoint
        → registry.find? breakpoint.address = some number
        → (registry.switch number enabled).values
          = registry.values.switch breakpoint.address enabled
  switchElsewhere
    : ∀ number breakpoint enabled,
        registry.created[number]? = some breakpoint
        → registry.find? breakpoint.address ≠ some number
        → (registry.switch number enabled).values = registry.values
  query
    : ∀ address,
        registry.values.query address = Prod.map id values (registry.query address)
  clear : registry.clearInterrupt.values = registry.values.clearInterrupt

/-- What a registry holds at an address is found there by value. -/
theorem Proper.find?_values (h : registry.Proper) (address : Int)
    : registry.values.find? address
      = (registry.find? address).bind fun number => registry.created[number]? := by
  apply Option.ext
  intro breakpoint
  rw [h.proper_values.find?_eq_some, h.mem_values, Option.bind_eq_some_iff]
  constructor
  · rintro ⟨held, rfl⟩
    exact held
  · rintro ⟨number, held, created⟩
    obtain ⟨_, other, found, here⟩ := h.exists_created held
    obtain rfl := Option.some.inj (found.symm.trans created)
    exact ⟨⟨number, here ▸ held, created⟩, here⟩

theorem Proper.contains_values (h : registry.Proper) (address : Int)
    : registry.values.contains address = registry.contains address := by
  rw [Breakpoints.contains, h.find?_values, contains]
  cases held : registry.find? address with
  | none => rfl
  | some number =>
      obtain ⟨_, breakpoint, created, _⟩ := h.exists_created held
      rw [Option.bind_some, created]
      rfl

/-- An addition by value inserts what is added behind the others. -/
theorem Proper.add_values (h : registry.Proper) {number : Nat} {breakpoint : Breakpoint}
    (created : registry.created[number]? = some breakpoint)
    : registry.values.add breakpoint
      = (registry.add number).1.map fun _ => (registry.add number).2.values := by
  simp only [Breakpoints.add, Registry.add, created, h.contains_values]
  by_cases negative : breakpoint.address < 0
  · simp only [negative, if_true]
    rfl
  · cases present : registry.contains breakpoint.address with
    | true =>
        simp only [negative, if_true, if_false]
        rfl
    | false =>
        have inserted
            : values { registry with held := registry.held ++ [(breakpoint.address, number)] }
              = {
                  registry.values with
                    entries := Breakpoints.insertOrdered breakpoint registry.values.entries
                } := by
          simp only [values, List.filterMap_append, ← sorted_append]
          simp [created]
        simp only [negative, Bool.false_eq_true, if_false, Except.map, inserted]

/-- A removal by value takes away what stands at its address. -/
theorem Proper.remove_values (h : registry.Proper) (address : Int)
    : (registry.values.remove address).map (Prod.map some id)
      = (registry.remove address).1.map fun number =>
          (registry.created[number]?, (registry.remove address).2.values) := by
  simp only [Breakpoints.remove, Registry.remove, h.find?_values]
  cases held : registry.find? address with
  | none => rfl
  | some number =>
      obtain ⟨_, breakpoint, created, _⟩ := h.exists_created held
      have left
          : values
                { registry with held := registry.held.filter fun entry => entry.1 ≠ address }
            = {
                registry.values with
                  entries := registry.values.entries.filter fun entry => entry.address ≠ address
              } := by
        have sublist := List.filter_sublist (p := fun entry : Breakpoint => entry.address ≠ address)
          (l := registry.values.entries)
        refine (h.remove address).values_eq ⟨h.proper_values.ordered.sublist sublist, ?_⟩ ?_ rfl
        · intro entry member
          exact h.proper_values.nonnegative entry (sublist.subset member)
        · intro entry
          rw [List.mem_filter, h.mem_values, decide_eq_true_eq]
          simp only [h.find?_remove]
          constructor
          · rintro ⟨⟨number, held, created⟩, elsewhere⟩
            exact ⟨number, ⟨held, elsewhere⟩, created⟩
          · rintro ⟨number, ⟨held, elsewhere⟩, created⟩
            exact ⟨⟨number, held, created⟩, elsewhere⟩
      simp only [Option.bind_some, created, Except.map, Prod.map, left, id]

/-- What a switch has been turned to is held where the breakpoint is. -/
theorem Proper.mem_values_switch (h : registry.Proper) (number : Nat) (enabled : Bool)
    {breakpoint : Breakpoint}
    : breakpoint ∈ (registry.switch number enabled).values.entries
      ↔ ∃ other,
          registry.find? breakpoint.address = some other
          ∧ ∃ before,
              registry.created[other]? = some before
              ∧ breakpoint
                = if other = number then { before with enabled } else before := by
  rw [(h.switch number enabled).mem_values]
  simp only [created_switch, Option.map_eq_some_iff, eq_comm (b := breakpoint)]
  rfl

/-- Turning the switch of what is held at an address is to switch there by value. -/
theorem Proper.switch_values (h : registry.Proper) {number : Nat} {breakpoint : Breakpoint}
    {enabled : Bool} (created : registry.created[number]? = some breakpoint)
    (held : registry.find? breakpoint.address = some number)
    : (registry.switch number enabled).values
      = registry.values.switch breakpoint.address enabled := by
  have proper := h.proper_values.switch breakpoint.address enabled
  refine (h.switch number enabled).values_eq proper (fun entry => ?_) rfl
  rw [← (h.switch number enabled).mem_values, h.mem_values_switch, Breakpoints.switch,
    List.mem_map]
  constructor
  · rintro ⟨before, member, rfl⟩
    obtain ⟨other, there, found⟩ := h.mem_values.mp member
    by_cases here : before.address = breakpoint.address
    · rw [here] at there
      obtain rfl := Option.some.inj (there.symm.trans held)
      exact ⟨other, by simpa [here] using there, before, found, by simp [here]⟩
    · have apart : other ≠ number := by
        rintro rfl
        exact here (congrArg Breakpoint.address (Option.some.inj (found.symm.trans created)))
      exact ⟨other, by simpa [here] using there, before, found, by simp [here, apart]⟩
  · rintro ⟨other, there, before, found, rfl⟩
    by_cases same : other = number
    · subst same
      obtain rfl := Option.some.inj (found.symm.trans created)
      exact ⟨before, h.mem_values.mpr ⟨other, held, found⟩, by simp⟩
    · simp only [same, if_false] at there ⊢
      have elsewhere : before.address ≠ breakpoint.address := by
        intro here
        exact same (Option.some.inj (there.symm.trans (here ▸ held)))
      exact ⟨before, h.mem_values.mpr ⟨other, there, found⟩, by simp [elsewhere]⟩

/-- Turning the switch of a breakpoint that is not held changes nothing of what is. -/
theorem Proper.switch_elsewhere_values (h : registry.Proper) {number : Nat}
    {breakpoint : Breakpoint} {enabled : Bool}
    (created : registry.created[number]? = some breakpoint)
    (loose : registry.find? breakpoint.address ≠ some number)
    : (registry.switch number enabled).values = registry.values := by
  refine (h.switch number enabled).values_eq h.proper_values (fun entry => ?_) rfl
  rw [← (h.switch number enabled).mem_values, h.mem_values_switch, h.mem_values]
  have apart {other : Nat} {before : Breakpoint}
      (there : registry.find? before.address = some other)
      (found : registry.created[other]? = some before)
      : other ≠ number := by
    rintro rfl
    obtain rfl := Option.some.inj (found.symm.trans created)
    exact loose there
  constructor
  · rintro ⟨other, there, found⟩
    exact ⟨other, there, entry, found, by simp [apart there found]⟩
  · rintro ⟨other, there, before, found, rfl⟩
    by_cases same : other = number
    · subst same
      simp only [if_true] at there
      exact absurd rfl (apart there found)
    · simp only [same, if_false] at there ⊢
      exact ⟨other, there, found⟩

/-- A query by value looks at the same switch. -/
theorem Proper.query_values (h : registry.Proper) (address : Int)
    : registry.values.query address = Prod.map id values (registry.query address) := by
  have switch
      : (registry.values.find? address).map (·.enabled) = registry.switchAt? address := by
    rw [h.find?_values, switchAt?]
    cases registry.find? address <;> rfl
  simp only [Breakpoints.query, query, switch]
  rfl

theorem Proper.byValue (h : registry.Proper) : registry.ByValue where
  find? := h.find?_values
  add _ _ created := h.add_values created
  remove := h.remove_values
  switch _ _ _ created held := h.switch_values created held
  switchElsewhere _ _ _ created loose := h.switch_elsewhere_values created loose
  query := h.query_values
  clear := rfl

end Registry

end Brainfuck
