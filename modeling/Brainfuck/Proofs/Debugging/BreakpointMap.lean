import Brainfuck.Proofs.Debugging.Registry
import Brainfuck.Proofs.Text.Numerals
import Mathlib.Data.Finmap

/-! Breakpoints as a finite map.
Whatever is done with a new registry and with the breakpoints that are in other hands, it holds what
a finite map holds that was built by the same operations, and lists it by increasing address.
Besides there is one flag for all of them, the answer to the latest query, so an interruption is for
one time.
-/

namespace Brainfuck.Registry

-----------------------------------------------------------------------------------------
-- Operations
-----------------------------------------------------------------------------------------

/-- What can be done with a registry, and with breakpoints that were created for it. -/
inductive Operation where
  | create (breakpoint : Breakpoint)
  | add (number : Nat)
  | remove (address : Int)
  /-- Removes the breakpoint that is the same as this one, which need not be held itself. -/
  | removeSame (number : Nat)
  | get (address : Int)
  /-- Turns a breakpoint on or off, whether it was created, got or removed. -/
  | switch (number : Nat) (enabled : Bool)
  | query (address : Int)
  | clear
deriving DecidableEq, Repr

/-- What comes back of an operation. -/
inductive Answer where
  | done
  | given (number? : Option Nat)
  | told (interrupts : Bool)
  | refused (fault : Fault)
deriving DecidableEq, Repr

/-- Takes away the breakpoint at an address, and gives it back. -/
def take (registry : Registry) (address : Int) : Answer × Registry :=
  match registry.remove address with
  | (.error fault, after) => (.refused fault, after)
  | (.ok number, after) => (.given (some number), after)

/-- Does what is asked, and answers. -/
def perform (registry : Registry) : Operation → Answer × Registry
  | .create breakpoint =>
      (.given (some registry.created.length), registry.create breakpoint)
  | .add number =>
      match registry.add number with
      | (.error fault, after) => (.refused fault, after)
      | (.ok (), after) => (.done, after)
  | .remove address => registry.take address
  | .removeSame number =>
      match registry.created[number]? with
      | none => (.done, registry)
      | some breakpoint => registry.take breakpoint.address
  | .get address => (.given (registry.find? address), registry)
  | .switch number enabled => (.done, registry.switch number enabled)
  | .query address =>
      let (interrupts, after) := registry.query address
      (.told interrupts, after)
  | .clear => (.done, registry.clearInterrupt)

/-- Does everything that is asked, in order. -/
def performAll (registry : Registry) (operations : List Operation) : Registry :=
  operations.foldl (fun registry operation => (registry.perform operation).2) registry

/-- Operations that have nothing to do with interruptions: all but queries and clearing. -/
def Operation.IsQuiet : Operation → Prop
  | .query _ | .clear => False
  | _ => True

-----------------------------------------------------------------------------------------
-- The map
-----------------------------------------------------------------------------------------

/-- A finite map from addresses to the breakpoints that are held there, which have switches of their
own.
-/
structure Holdings where
  created : List Breakpoint := []
  held : Finmap fun _ : Int => Nat := ∅

/-- The switch that is held at an address. -/
def Holdings.switchAt? (holdings : Holdings) (address : Int) : Option Bool :=
  (holdings.held.lookup address).bind fun number => holdings.created[number]?.map (·.enabled)

/-- What an operation makes of the map. -/
def Holdings.follow (holdings : Holdings) : Operation → Holdings
  | .create breakpoint => { holdings with created := holdings.created ++ [breakpoint] }
  | .add number =>
      match holdings.created[number]? with
      | none => holdings
      | some breakpoint =>
          if 0 ≤ breakpoint.address ∧ breakpoint.address ∉ holdings.held then
            { holdings with held := holdings.held.insert breakpoint.address number }
          else holdings
  | .remove address => { holdings with held := holdings.held.erase address }
  | .removeSame number =>
      match holdings.created[number]? with
      | none => holdings
      | some breakpoint => { holdings with held := holdings.held.erase breakpoint.address }
  | .switch number enabled =>
      {
        holdings with
          created := holdings.created.modify number fun breakpoint => { breakpoint with enabled }
      }
  | .get _ | .query _ | .clear => holdings

/-- The map that operations build. -/
def Holdings.built (operations : List Operation) : Holdings :=
  operations.foldl follow {}

/-- A registry that holds the same as a map. -/
structure Represents (holdings : Holdings) (registry : Registry) : Prop where
  proper : registry.Proper
  created : registry.created = holdings.created
  find? : ∀ address, registry.find? address = holdings.held.lookup address

variable {holdings : Holdings} {registry : Registry}

theorem Represents.switchAt? (h : Represents holdings registry) (address : Int)
    : registry.switchAt? address = holdings.switchAt? address := by
  rw [Registry.switchAt?, Holdings.switchAt?, h.find?, h.created]

theorem Represents.find?_eq_none (h : Represents holdings registry) {address : Int}
    : registry.find? address = none ↔ address ∉ holdings.held := by
  rw [h.find?, Finmap.lookup_eq_none]

-----------------------------------------------------------------------------------------
-- What is refused
-----------------------------------------------------------------------------------------

/-- What is raised by a refusal at an address: an invalid configuration, unless the address is too
long to be written.
-/
structure RefusedAt (address : Int) (fault : Fault) : Prop where
  invalid : Text.IsShort address → fault.kind = .invalidConfiguration
  unwritable : ¬ Text.IsShort address → fault = .integerFault .unwritable

/-- A cause whose message mentions an address only is raised by a refusal there. -/
theorem refusedAt_raised {address : Int} (cause : Fault)
    (mentions : cause.numbers = [address]) (kind : cause.kind = .invalidConfiguration)
    : RefusedAt address cause.raised := by
  have writable_iff := Fault.isWritable_iff_of_numbers mentions
  constructor
  · intro short
    rwa [Fault.raised_of_isWritable (writable_iff.mpr short)]
  · intro long
    exact Fault.raised_of_not_isWritable (mt writable_iff.mp long)

/-- An addition is refused at a negative address, and where a breakpoint is held already. -/
theorem Represents.perform_add_of_refused (h : Represents holdings registry) {number : Nat}
    {breakpoint : Breakpoint} (created : registry.created[number]? = some breakpoint)
    (unfit : breakpoint.address < 0 ∨ breakpoint.address ∈ holdings.held)
    : ∃ fault,
        registry.perform (.add number) = (.refused fault, registry)
        ∧ RefusedAt breakpoint.address fault := by
  have unfree : breakpoint.address < 0 ∨ registry.find? breakpoint.address ≠ none :=
    unfit.imp_right fun present absent => h.find?_eq_none.mp absent present
  obtain ⟨cause, is, refused⟩ := exists_add_eq_error created unfree
  refine ⟨cause.raised, by simp only [perform, refused], ?_⟩
  rcases List.mem_pair.mp is with rfl | rfl <;> exact refusedAt_raised _ rfl rfl

/-- A removal is refused where no breakpoint is held. -/
theorem Represents.take_of_absent (h : Represents holdings registry) {address : Int}
    (absent : address ∉ holdings.held)
    : ∃ fault, registry.take address = (.refused fault, registry) ∧ RefusedAt address fault := by
  refine ⟨_, ?_, refusedAt_raised (.breakpointNotFound address) rfl rfl⟩
  simp only [take, remove, h.find?_eq_none.mpr absent]

theorem Represents.take_of_present (h : Represents holdings registry) {address : Int}
    {number : Nat} (held : holdings.held.lookup address = some number)
    : registry.take address
      = (.given (some number),
          { registry with held := registry.held.filter fun entry => entry.1 ≠ address }) := by
  simp only [take, remove, h.find?, held]

-----------------------------------------------------------------------------------------
-- What an operation preserves
-----------------------------------------------------------------------------------------

theorem Represents.empty : Represents {} {} where
  proper := .empty
  created := rfl
  find? _ := rfl

/-- An addition changes what is held at its address, and nowhere else. -/
theorem Represents.add (h : Represents holdings registry) {number : Nat}
    {breakpoint : Breakpoint} (created : registry.created[number]? = some breakpoint)
    (inside : 0 ≤ breakpoint.address) (new : breakpoint.address ∉ holdings.held)
    : Represents { holdings with held := holdings.held.insert breakpoint.address number }
        { registry with held := registry.held ++ [(breakpoint.address, number)] } where
  proper := h.proper.add created inside (h.find?_eq_none.mpr new)
  created := h.created
  find? address := by
    have before := h.find? address
    unfold Registry.find? at before ⊢
    rw [List.find?_append, Option.map_or, before]
    by_cases here : address = breakpoint.address
    · subst here
      simp [Finmap.lookup_eq_none.mpr new]
    · rw [Finmap.lookup_insert_of_ne holdings.held here]
      simp [Ne.symm here]

/-- A removal changes what is held at its address, and nowhere else. -/
theorem Represents.take (h : Represents holdings registry) (address : Int)
    : Represents { holdings with held := holdings.held.erase address }
        (registry.take address).2 := by
  cases held : holdings.held.lookup address with
  | none =>
      have absent := Finmap.lookup_eq_none.mp held
      obtain ⟨fault, refused, _⟩ := h.take_of_absent absent
      rw [refused]
      refine ⟨h.proper, h.created, fun place => ?_⟩
      rw [h.find?]
      by_cases here : place = address
      · rw [here, held, Finmap.lookup_erase]
      · rw [Finmap.lookup_erase_ne here]
  | some number =>
      rw [h.take_of_present held]
      refine ⟨h.proper.remove address, h.created, fun place => Option.ext fun number => ?_⟩
      rw [h.proper.find?_remove, h.find?]
      by_cases here : place = address
      · subst here
        simp
      · simp [here, Finmap.lookup_erase_ne here]

/-- Every operation keeps registry and map together, by cases on the operation. -/
theorem Represents.follow (h : Represents holdings registry) (operation : Operation)
    : Represents (holdings.follow operation) (registry.perform operation).2 := by
  cases operation with
  | create breakpoint =>
      exact ⟨h.proper.create breakpoint, congrArg (· ++ [breakpoint]) h.created, h.find?⟩
  | add number =>
      rw [Holdings.follow, ← h.created]
      cases created : registry.created[number]? with
      | none =>
          simp only [perform, Registry.add, created]
          exact h
      | some breakpoint =>
          by_cases fit : 0 ≤ breakpoint.address ∧ breakpoint.address ∉ holdings.held
          · simp only [perform, add_eq created fit.1 (h.find?_eq_none.mpr fit.2), fit,
              not_false_eq_true, and_self, if_true]
            exact h.created ▸ h.add created fit.1 fit.2
          · have unfit : breakpoint.address < 0 ∨ breakpoint.address ∈ holdings.held := by
              rcases not_and_or.mp fit with negative | present
              · exact Or.inl (Int.not_le.mp negative)
              · exact Or.inr (not_not.mp present)
            obtain ⟨fault, refused, _⟩ := h.perform_add_of_refused created unfit
            rw [refused]
            simp only [fit, if_false]
            exact h
  | remove address => exact h.take address
  | removeSame number =>
      simp only [Holdings.follow, perform, ← h.created]
      cases registry.created[number]? with
      | none => exact h
      | some breakpoint => exact h.created ▸ h.take breakpoint.address
  | switch number enabled =>
      exact ⟨h.proper.switch number enabled, congrArg (List.modify · number _) h.created, h.find?⟩
  | get address => exact h
  | query address | clear => exact ⟨⟨h.proper.distinct, h.proper.placed⟩, h.created, h.find?⟩

/-- A new registry holds what the same operations build, by induction on them from the end. -/
theorem represents_built (operations : List Operation)
    : Represents (Holdings.built operations) (performAll {} operations) := by
  induction operations using List.reverseRecOn with
  | nil => exact .empty
  | append_singleton earlier operation ih =>
      simp only [Holdings.built, performAll, List.foldl_append, List.foldl_cons, List.foldl_nil]
      exact ih.follow operation

-----------------------------------------------------------------------------------------
-- The latest query
-----------------------------------------------------------------------------------------

/-- The answer to the latest query that operations on a new registry have made, unless there was
none since the beginning or since it was cleared.
-/
inductive Latest : List Operation → Bool → Prop
  | unasked {rest : List Operation} (quiet : ∀ operation ∈ rest, operation.IsQuiet)
    : Latest rest false
  | cleared (front : List Operation) {rest : List Operation}
    (quiet : ∀ operation ∈ rest, operation.IsQuiet)
    : Latest (front ++ .clear :: rest) false
  | told (front : List Operation) {address : Int} {rest : List Operation} {interrupts : Bool}
    (answer : ((performAll {} front).perform (.query address)).1 = .told interrupts)
    (quiet : ∀ operation ∈ rest, operation.IsQuiet)
    : Latest (front ++ .query address :: rest) interrupts

theorem performAll_append (registry : Registry) (operations more : List Operation)
    : registry.performAll (operations ++ more)
      = (registry.performAll operations).performAll more :=
  List.foldl_append

/-- A query interrupts at an enabled breakpoint when the flag is down. -/
theorem Represents.interrupts (h : Represents holdings registry) (address : Int)
    : (registry.perform (.query address)).1
      = .told
          (decide (holdings.switchAt? address = some true ∧ registry.interrupted = false)) := by
  simp only [perform, query, h.switchAt?]
  cases holdings.switchAt? address with
  | none => simp
  | some enabled => cases enabled <;> cases registry.interrupted <;> rfl

/-- The flag becomes what a query answers. -/
theorem interrupted_of_told {address : Int} {interrupts : Bool}
    (answer : (registry.perform (.query address)).1 = .told interrupts)
    : (registry.perform (.query address)).2.interrupted = interrupts := by
  cases answer
  rfl

/-- Quiet operations leave the flag alone, by cases on the operation. -/
theorem interrupted_perform {operation : Operation} (quiet : operation.IsQuiet)
    (registry : Registry)
    : (registry.perform operation).2.interrupted = registry.interrupted := by
  have taken (address : Int) : (registry.take address).2.interrupted = registry.interrupted := by
    unfold take remove
    cases registry.find? address <;> rfl
  cases operation with
  | add number =>
      have added : (registry.add number).2.interrupted = registry.interrupted := by
        unfold add
        cases registry.created[number]? with
        | none => rfl
        | some breakpoint =>
            simp only
            split
            · rfl
            · split <;> rfl
      simp only [perform]
      split <;> simpa only [*] using added
  | remove address => exact taken address
  | removeSame number =>
      simp only [perform]
      cases registry.created[number]? with
      | none => rfl
      | some breakpoint => exact taken breakpoint.address
  | create breakpoint | get address | switch number enabled => rfl
  | query address | clear => exact quiet.elim

theorem interrupted_performAll {operations : List Operation}
    (quiet : ∀ operation ∈ operations, operation.IsQuiet) (registry : Registry)
    : (registry.performAll operations).interrupted = registry.interrupted := by
  induction operations generalizing registry with
  | nil => rfl
  | cons operation later ih =>
      obtain ⟨first, rest⟩ := List.forall_mem_cons.mp quiet
      exact (ih rest _).trans (interrupted_perform first registry)

/-- The flag is the answer to the latest query, by cases on what was asked last. -/
theorem Latest.interrupted_eq {operations : List Operation} {interrupts : Bool}
    (h : Latest operations interrupts)
    : (performAll {} operations).interrupted = interrupts := by
  cases h with
  | unasked quiet => exact interrupted_performAll quiet {}
  | cleared front quiet =>
      rw [performAll_append]
      exact interrupted_performAll quiet _
  | told front answer quiet =>
      rw [performAll_append]
      exact (interrupted_performAll quiet _).trans (interrupted_of_told answer)

/-- Another quiet operation is none to be asked for later. -/
theorem Latest.append_quiet {operations : List Operation} {interrupts : Bool}
    (h : Latest operations interrupts) {last : Operation} (also : last.IsQuiet)
    : Latest (operations ++ [last]) interrupts := by
  have longer {rest : List Operation} (quiet : ∀ operation ∈ rest, operation.IsQuiet)
      : ∀ operation ∈ rest ++ [last], operation.IsQuiet := by
    intro operation member
    rcases List.mem_append.mp member with inside | new
    · exact quiet operation inside
    · exact List.mem_singleton.mp new ▸ also
  cases h with
  | unasked quiet => exact .unasked (longer quiet)
  | cleared front quiet =>
      rw [List.append_assoc]
      exact .cleared front (longer quiet)
  | told front answer quiet =>
      rw [List.append_assoc]
      exact .told front answer (longer quiet)

/-- There always is a latest answer, or none; by induction on the operations from the end. -/
theorem exists_latest (operations : List Operation)
    : ∃ interrupts, Latest operations interrupts := by
  induction operations using List.reverseRecOn with
  | nil => exact ⟨false, .unasked nofun⟩
  | append_singleton earlier operation ih =>
      obtain ⟨before, latest⟩ := ih
      cases operation with
      | query address => exact ⟨_, .told earlier rfl nofun⟩
      | clear => exact ⟨false, .cleared earlier nofun⟩
      | create breakpoint | add number | remove address | removeSame number | get address
      | switch number enabled =>
          exact ⟨before, latest.append_quiet trivial⟩

-----------------------------------------------------------------------------------------
-- A map with one flag
-----------------------------------------------------------------------------------------

/-- What operations on a new registry have made: a finite map to breakpoints that others may hold as
well, and a flag that is up only behind a query that has interrupted. By value the registry is what
a debugger keeps.
-/
structure OneShotMap (operations : List Operation) (holdings : Holdings) (registry : Registry)
    : Prop where
  created : registry.created = holdings.created
  found : ∀ address, registry.find? address = holdings.held.lookup address
  nonnegative : ∀ address ∈ holdings.held, 0 ≤ address
  increasing
    : (registry.values.entries.map Breakpoint.address).Pairwise fun left right => left < right
  listed
    : ∀ entry : Breakpoint,
        entry ∈ registry.values.entries
        ↔ holdings.switchAt? entry.address = some entry.enabled
  adds
    : ∀ number breakpoint,
        registry.created[number]? = some breakpoint
        → 0 ≤ breakpoint.address
        → breakpoint.address ∉ holdings.held
        → (registry.perform (.add number)).1 = .done
  refusesAddition
    : ∀ number breakpoint,
        registry.created[number]? = some breakpoint
        → breakpoint.address < 0 ∨ breakpoint.address ∈ holdings.held
        → ∃ fault,
            registry.perform (.add number) = (.refused fault, registry)
            ∧ RefusedAt breakpoint.address fault
  removes
    : ∀ address number,
        holdings.held.lookup address = some number
        → (registry.perform (.remove address)).1 = .given (some number)
  refusesRemoval
    : ∀ address,
        address ∉ holdings.held
        → ∃ fault,
            registry.perform (.remove address) = (.refused fault, registry)
            ∧ RefusedAt address fault
  removesSame
    : ∀ number breakpoint,
        registry.created[number]? = some breakpoint
        → registry.perform (.removeSame number)
          = registry.perform (.remove breakpoint.address)
  shared
    : ∀ number enabled address,
        (registry.perform (.switch number enabled)).2.switchAt? address
        = if registry.find? address = some number then some enabled
          else registry.switchAt? address
  latest : ∀ interrupts, registry.interrupted = interrupts ↔ Latest operations interrupts
  interrupts
    : ∀ address,
        (registry.perform (.query address)).1
        = .told
            (decide (holdings.switchAt? address = some true ∧ registry.interrupted = false))
  once
    : ∀ address other between,
        (registry.perform (.query address)).1 = .told true
        → (∀ operation ∈ between, operation.IsQuiet)
        → ((performAll {} (operations ++ .query address :: between)).perform (.query other)).1
          = .told false
  byValue : registry.ByValue

/-- What is held is listed with its switch. -/
theorem Represents.mem_values (h : Represents holdings registry) {entry : Breakpoint}
    : entry ∈ registry.values.entries
      ↔ holdings.switchAt? entry.address = some entry.enabled := by
  rw [h.proper.mem_values, ← h.switchAt?, Registry.switchAt?, Option.bind_eq_some_iff]
  refine exists_congr fun number => and_congr_right fun held => ?_
  obtain ⟨_, breakpoint, created, here⟩ := h.proper.exists_created held
  rw [created, Option.map_some, Option.some.injEq, Option.some.injEq]
  constructor
  · rintro rfl
    rfl
  · intro same
    obtain ⟨_, _⟩ := breakpoint
    obtain ⟨_, _⟩ := entry
    exact congrArg₂ Breakpoint.mk here same

/-- A switch that is turned is turned where the breakpoint is held, and nowhere else. -/
theorem Proper.switchAt?_switch (h : registry.Proper) (number : Nat) (enabled : Bool)
    (address : Int)
    : (registry.switch number enabled).switchAt? address
      = if registry.find? address = some number then some enabled
        else registry.switchAt? address := by
  have held : (registry.switch number enabled).find? address = registry.find? address := rfl
  unfold switchAt?
  rw [held]
  cases found : registry.find? address with
  | none => rfl
  | some other =>
      obtain ⟨_, breakpoint, created, _⟩ := h.exists_created found
      rw [Option.bind_some, Option.bind_some, created_switch, created]
      by_cases same : other = number <;> simp [same]

/-- A query behind one that has interrupted lets execution through, because the flag is up. -/
theorem passes_behind_interruption {operations between : List Operation} {address : Int}
    (interrupted : ((performAll {} operations).perform (.query address)).1 = .told true)
    (quiet : ∀ operation ∈ between, operation.IsQuiet) (other : Int)
    : ((performAll {} (operations ++ .query address :: between)).perform (.query other)).1
      = .told false := by
  have up := (Latest.told operations interrupted quiet).interrupted_eq
  have represents := represents_built (operations ++ .query address :: between)
  rw [represents.interrupts, up]
  simp

/-- A registry is a finite map with a flag that interrupts for one time. Whatever is done with a new
one and with the breakpoints in other hands, it holds what the same operations build of a map and
lists it in order. Unfit additions and removals are refused and change nothing; they raise an
invalid configuration as long as the address can be written. The flag is the answer to the latest
query, and no query interrupts while it is up.
-/
theorem one_shot_map (operations : List Operation)
    : OneShotMap operations (Holdings.built operations) (performAll {} operations) := by
  have represents := represents_built operations
  exact
    {
      created := represents.created
      found := represents.find?
      nonnegative := by
        intro address present
        obtain ⟨number, held⟩ := Finmap.mem_iff.mp present
        exact (represents.proper.exists_created ((represents.find? address).trans held)).1
      increasing := List.pairwise_map.mpr represents.proper.proper_values.ordered
      listed := fun entry => represents.mem_values
      adds := by
        intro number breakpoint created inside new
        simp only [perform, add_eq created inside (represents.find?_eq_none.mpr new)]
      refusesAddition := fun number breakpoint => represents.perform_add_of_refused
      removes := fun address number held => congrArg Prod.fst (represents.take_of_present held)
      refusesRemoval := fun address => represents.take_of_absent
      removesSame := by
        intro number breakpoint created
        simp only [perform, created]
      shared := represents.proper.switchAt?_switch
      latest := by
        intro interrupts
        constructor
        · rintro rfl
          obtain ⟨answer, latest⟩ := exists_latest operations
          rwa [latest.interrupted_eq]
        · exact Latest.interrupted_eq
      interrupts := represents.interrupts
      once := fun address other between interrupted quiet =>
        passes_behind_interruption interrupted quiet other
      byValue := represents.proper.byValue
    }

-- Another breakpoint at the same address is refused, and its switch turns nothing that is held.
example
    : (performAll {}
          [.create { address := 3 }, .create { address := 3 }, .add 0, .add 1,
            .switch 1 false]).values.entries
      = [{ address := 3 }] := by
  decide

-- A breakpoint that was removed is turned off in other hands, and held again as it is then.
example
    : (performAll {}
          [.create { address := 3 }, .add 0, .remove 3, .switch 0 false,
            .add 0]).values.entries
      = [{ address := 3, enabled := false }] := by
  decide

/-- A removal at the least address that is too long to be written raises something else than an
invalid configuration.
-/
theorem removal_at_long_address_raises_otherwise
    : ∃ fault,
        perform {} (.remove (10 ^ Text.maxDigits)) = (.refused fault, {})
        ∧ fault.kind = .badValue := by
  have absent : (10 ^ Text.maxDigits : Int) ∉ (Holdings.built []).held := Finmap.notMem_empty
  obtain ⟨fault, removal, refusal⟩ := (represents_built []).take_of_absent absent
  exact ⟨fault, removal, refusal.unwritable Text.not_isShort_pow ▸ rfl⟩

end Brainfuck.Registry
