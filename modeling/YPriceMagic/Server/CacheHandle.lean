import YPriceMagic.Async.Entries
import YPriceMagic.Async.Run

/-! `get_cache` and `close_cache`, statement by statement, in any number of threads. They
share the handle of the cache, which is checked without the lock and again with it. -/
namespace YPriceMagic.Server.CacheHandle
open YPriceMagic.Async

inductive Result
  | returned (handle : Option Nat)
  | closed
  | raised
  deriving DecidableEq, Repr

/-- Where a thread stands: before the statement that it executes next. -/
inductive Place
  | check
  | lockToOpen
  | recheck
  | opening
  | assign (cache : Nat)
  | unlockOpened (raised : Bool)
  | reading
  | lockToClose
  | checkOpen
  | closing
  | clearing
  | unlockClosed (raised : Bool)
  | ended (result : Result)
  deriving DecidableEq, Repr

/-- Between the acquisition of the lock and its release. -/
def Place.inside : Place → Bool
  | recheck | opening | assign _ | unlockOpened _ | checkOpen | closing | clearing | unlockClosed _ => true
  | _ => false

/-- The places of `get_cache`. -/
def Place.gets : Place → Bool
  | check | lockToOpen | recheck | opening | assign _ | unlockOpened _ | reading => true
  | ended result => result != .closed
  | _ => false

/-- Every cache that was ever constructed, with whether it is open; `handle` is `_cache`. -/
structure Threads where
  caches : List Bool
  handle : Option Nat
  holder : Option Nat
  places : List Place
  deriving DecidableEq, Repr

def init : Threads := ⟨[],none,none,[]⟩

namespace Threads

def goto (s : Threads) (id : Nat) (place : Place) : Threads := {s with places := s.places.set id place}

def lock (s : Threads) (id : Nat) (place : Place) : Option Threads :=
  if s.holder = none then some (goto {s with holder := some id} id place) else none

def unlock (s : Threads) (id : Nat) (place : Place) : Threads := goto {s with holder := none} id place

/-- `fault` is whether the statement raises, where it calls the cache library. A cache whose
`close` raises stays open. -/
def advance (s : Threads) (id : Nat) (fault : Bool) : Place → Option Threads
  | .check => some (s.goto id (if s.handle.isNone then .lockToOpen else .reading))
  | .lockToOpen => s.lock id .recheck
  | .recheck => some (s.goto id (if s.handle.isNone then .opening else .unlockOpened false))
  | .opening =>
    if fault then some (s.goto id (.unlockOpened true))
    else some (goto {s with caches := s.caches++[true]} id (.assign s.caches.length))
  | .assign cache => some (goto {s with handle := some cache} id (.unlockOpened false))
  | .unlockOpened raised => some (s.unlock id (if raised then .ended .raised else .reading))
  | .reading => some (s.goto id (.ended (.returned s.handle)))
  | .lockToClose => s.lock id .checkOpen
  | .checkOpen => some (s.goto id (if s.handle.isSome then .closing else .unlockClosed false))
  | .closing => s.handle.map fun cache =>
    if fault then s.goto id (.unlockClosed true) else goto {s with caches := s.caches.set cache false} id .clearing
  | .clearing => some (goto {s with handle := none} id (.unlockClosed false))
  | .unlockClosed raised => some (s.unlock id (.ended (if raised then .raised else .closed)))
  | .ended _ => none

inductive Action
  | getCache
  | closeCache
  | step (id : Nat) (fault : Bool)
  deriving DecidableEq, Repr

def step (s : Threads) : Action → Option Threads
  | .getCache => some {s with places := s.places++[.check]}
  | .closeCache => some {s with places := s.places++[.lockToClose]}
  | .step id fault => s.places[id]?.bind (s.advance id fault)

/-- The only cache that is open. -/
def Opens (caches : List Bool) (cache : Option Nat) : Prop := ∀ i : Nat, caches[i]? = some true ↔ cache = some i

/-- How the handle stands to the open cache, by the place of the thread that holds the lock. -/
def Consistent (caches : List Bool) (handle : Option Nat) : Option Place → Prop
  | some .opening => handle = none ∧ Opens caches none
  | some (.assign cache) => handle = none ∧ Opens caches (some cache)
  | some .clearing => handle.isSome = true ∧ Opens caches none
  | _ => Opens caches handle

structure Valid (s : Threads) : Prop where
  exclusive : ∀ (id : Nat) place, s.places[id]? = some place → place.inside = true → s.holder = some id
  held : ∀ id, s.holder = some id → ∃ place, s.places[id]? = some place ∧ place.inside = true
  consistent : Consistent s.caches s.handle (s.holder.bind (s.places[·]?))

variable {s next : Threads} {id : Nat} {fault : Bool} {place : Place}

theorem init_valid : init.Valid :=
  ⟨by simp [init],by simp [init],fun i => by simp [init]⟩

theorem Valid.begin (valid : s.Valid) (outside : place.inside = false) : Valid {s with places := s.places++[place]} := by
  refine ⟨fun id found present inside => ?_,fun id held => ?_,?_⟩
  · rcases mem_snoc_table present with old | ⟨_,rfl⟩
    · exact valid.exclusive id found old inside
    · rw [outside] at inside
      cases inside
  · obtain ⟨found,present,inside⟩ := valid.held id held
    exact ⟨found,by rwa [List.getElem?_append_left (List.getElem?_eq_some_iff.mp present).1],inside⟩
  · have consistent := valid.consistent
    cases holder : s.holder with
    | none =>
      rw [holder] at consistent
      simpa [holder] using consistent
    | some id =>
      obtain ⟨found,present,_⟩ := valid.held id holder
      rw [holder] at consistent
      simpa [holder,List.getElem?_append_left (List.getElem?_eq_some_iff.mp present).1] using consistent

/-- A thread outside goes on outside; nothing shared changes. -/
theorem Valid.outside (valid : s.Valid) {after : Place} (found : s.places[id]? = some place) (out : place.inside = false)
    (stays : after.inside = false) : (s.goto id after).Valid := by
  have other (holder : Nat) (held : s.holder = some holder) : holder ≠ id := by
    rintro rfl
    obtain ⟨here,present,inside⟩ := valid.held holder held
    cases Option.some.inj (found.symm.trans present)
    rw [out] at inside
    cases inside
  refine ⟨fun other here present inside => ?_,fun holder held => ?_,?_⟩
  · rcases mem_set_table present with ⟨_,rfl⟩ | ⟨_,old⟩
    · rw [stays] at inside
      cases inside
    · exact valid.exclusive other here old inside
  · obtain ⟨here,present,inside⟩ := valid.held holder held
    exact ⟨here,by rwa [goto,List.getElem?_set_ne (other holder held).symm],inside⟩
  · have consistent := valid.consistent
    unfold goto
    dsimp only
    cases holder : s.holder with
    | none =>
      rw [holder] at consistent
      exact consistent
    | some held =>
      rw [holder] at consistent
      simpa [List.getElem?_set_ne (other held holder).symm] using consistent

/-- The thread inside goes on with what is shared as its next place needs it. -/
theorem Valid.inside (valid : s.Valid) {caches : List Bool} {handle : Option Nat} {after : Place} (found : s.places[id]? = some place)
    (within : place.inside = true) (stays : after.inside = true) (consistent : Consistent caches handle (some after)) :
    (goto {s with caches,handle} id after).Valid := by
  have mine := valid.exclusive id place found within
  have bound := (List.getElem?_eq_some_iff.mp found).1
  refine ⟨fun other here present inside => ?_,fun holder held => ?_,?_⟩
  · rcases mem_set_table present with ⟨rfl,_⟩ | ⟨_,old⟩
    · exact mine
    · exact valid.exclusive other here old inside
  · cases Option.some.inj (mine.symm.trans held)
    exact ⟨after,by simp [goto,bound],stays⟩
  · simpa [goto,mine,bound] using consistent

theorem Valid.enters (valid : s.Valid) {after : Place} (found : s.places[id]? = some place)
    (locked : s.lock id after = some next) (inside : after.inside = true)
    (plain : Consistent s.caches s.handle none → Consistent s.caches s.handle (some after)) : next.Valid := by
  unfold lock at locked
  split at locked
  · rename_i free
    cases Option.some.inj locked
    have bound := (List.getElem?_eq_some_iff.mp found).1
    refine ⟨fun other here present within => ?_,fun holder held => ?_,?_⟩
    · rcases mem_set_table present with ⟨rfl,_⟩ | ⟨_,old⟩
      · rfl
      · have held := valid.exclusive other here old within
        rw [free] at held
        cases held
    · cases Option.some.inj held
      exact ⟨after,by simp [goto,bound],inside⟩
    · have consistent := valid.consistent
      rw [free] at consistent
      simpa [goto,bound] using plain consistent
  · cases locked

theorem Valid.leaves (valid : s.Valid) {after : Place} (found : s.places[id]? = some place) (within : place.inside = true)
    (outside : after.inside = false) (plain : Consistent s.caches s.handle (some place) → Consistent s.caches s.handle none) :
    (s.unlock id after).Valid := by
  have mine := valid.exclusive id place found within
  refine ⟨fun other here present inside => ?_,fun holder held => (by cases held),?_⟩
  · rcases mem_set_table present with ⟨_,rfl⟩ | ⟨different,old⟩
    · rw [outside] at inside
      cases inside
    · have held := valid.exclusive other here old inside
      exact absurd (Option.some.inj (mine.symm.trans held)) different.symm
  · have consistent := valid.consistent
    rw [mine,Option.bind_some,found] at consistent
    exact plain consistent

theorem Valid.here (valid : s.Valid) (found : s.places[id]? = some place) (within : place.inside = true) :
    Consistent s.caches s.handle (some place) := by
  have consistent := valid.consistent
  rwa [valid.exclusive id place found within,Option.bind_some,found] at consistent

theorem opens_snoc {caches : List Bool} (none_open : Opens caches none) : Opens (caches++[true]) (some caches.length) := by
  intro i
  rw [Option.some.injEq]
  constructor
  · intro present
    rcases mem_snoc_table present with old | ⟨rfl,_⟩
    · exact absurd ((none_open i).mp old) (by simp)
    · rfl
  · rintro rfl
    simp

theorem opens_closed {caches : List Bool} {cache : Nat} (one : Opens caches (some cache)) : Opens (caches.set cache false) none := by
  intro i
  constructor
  · intro present
    rcases mem_set_table present with ⟨_,same⟩ | ⟨different,old⟩
    · cases same
    · exact absurd (Option.some.inj ((one i).mp old)) different.symm
  · intro absent
    cases absent

theorem advance_valid (valid : s.Valid) (found : s.places[id]? = some place) (advanced : s.advance id fault place = some next) :
    next.Valid := by
  cases place with
  | check =>
    cases Option.some.inj advanced
    refine valid.outside found rfl ?_
    split <;> rfl
  | lockToOpen =>
    have locked : s.lock id .recheck = some next := advanced
    exact valid.enters found locked rfl fun consistent => consistent
  | recheck =>
    cases Option.some.inj advanced
    have opens : Opens s.caches s.handle := valid.here found rfl
    split
    · rename_i absent
      have empty : s.handle = none := Option.isNone_iff_eq_none.mp absent
      rw [empty] at opens
      exact valid.inside found rfl rfl ⟨empty,opens⟩
    · exact valid.inside found rfl rfl opens
  | opening =>
    obtain ⟨empty,closed⟩ := valid.here found rfl
    simp only [advance] at advanced
    split at advanced
    · cases Option.some.inj advanced
      refine valid.inside found rfl rfl (?_ : Opens s.caches s.handle)
      rwa [empty]
    · cases Option.some.inj advanced
      exact valid.inside found rfl rfl ⟨empty,opens_snoc closed⟩
  | assign cache =>
    cases Option.some.inj advanced
    obtain ⟨_,opens⟩ := valid.here found rfl
    exact valid.inside found rfl rfl opens
  | unlockOpened raised =>
    cases Option.some.inj advanced
    refine valid.leaves found rfl ?_ fun consistent => consistent
    split <;> rfl
  | reading =>
    cases Option.some.inj advanced
    exact valid.outside found rfl rfl
  | lockToClose =>
    have locked : s.lock id .checkOpen = some next := advanced
    exact valid.enters found locked rfl fun consistent => consistent
  | checkOpen =>
    cases Option.some.inj advanced
    have opens : Opens s.caches s.handle := valid.here found rfl
    split
    · exact valid.inside found rfl rfl opens
    · exact valid.inside found rfl rfl opens
  | closing =>
    have opens : Opens s.caches s.handle := valid.here found rfl
    obtain ⟨cache,present,same⟩ := Option.map_eq_some_iff.mp advanced
    split at same
    · cases same
      exact valid.inside found rfl rfl opens
    · cases same
      rw [present] at opens
      exact valid.inside found rfl rfl ⟨by rw [present]; rfl,opens_closed opens⟩
  | clearing =>
    cases Option.some.inj advanced
    obtain ⟨_,closed⟩ := valid.here found rfl
    exact valid.inside found rfl rfl closed
  | unlockClosed raised =>
    cases Option.some.inj advanced
    exact valid.leaves found rfl rfl fun consistent => consistent
  | ended result => cases advanced

theorem step_valid {action : Action} (valid : s.Valid) (stepped : s.step action = some next) : next.Valid := by
  cases action with
  | getCache | closeCache =>
    cases Option.some.inj stepped
    exact valid.begin rfl
  | step id fault =>
    obtain ⟨place,found,advanced⟩ := Option.bind_eq_some_iff.mp stepped
    exact advance_valid valid found advanced

/-- Where a thread of `get_cache` stands, when nobody closes the cache. -/
def Fresh (handle : Option Nat) : Place → Prop
  | .reading | .unlockOpened false => handle = some 0
  | .assign cache => cache = 0
  | .ended (.returned result) => result = some 0 ∧ handle = some 0
  | place => place.gets = true

structure Unclosed (s : Threads) : Prop where
  valid : s.Valid
  lasting : ∀ (i : Nat) isOpen, s.caches[i]? = some isOpen → isOpen = true
  first : ∀ cache, s.handle = some cache → cache = 0
  fresh : ∀ place ∈ s.places, Fresh s.handle place

theorem Fresh.gets {handle : Option Nat} (fresh : Fresh handle place) : place.gets = true := by
  cases place with
  | unlockOpened raised => rfl
  | ended result =>
    cases result with
    | returned result => rfl
    | closed | raised => exact fresh
  | reading | assign _ => rfl
  | _ => exact fresh

theorem Fresh.assigned {handle : Option Nat} (fresh : Fresh handle place) : Fresh (some 0) place := by
  cases place with
  | unlockOpened raised => cases raised <;> rfl
  | ended result =>
    cases result with
    | returned result => exact ⟨fresh.1,rfl⟩
    | closed | raised => exact fresh
  | reading => rfl
  | _ => exact fresh

theorem Unclosed.goto (unclosed : s.Unclosed) {after : Place} (valid : (s.goto id after).Valid) (fresh : Fresh s.handle after) :
    (s.goto id after).Unclosed := by
  refine ⟨valid,unclosed.lasting,unclosed.first,fun place member => ?_⟩
  rcases List.mem_or_eq_of_mem_set member with old | rfl
  · exact unclosed.fresh place old
  · exact fresh

theorem Unclosed.handle_some (unclosed : s.Unclosed) (present : ¬ s.handle.isNone = true) : s.handle = some 0 := by
  cases handle : s.handle with
  | none => simp [handle] at present
  | some cache => rw [unclosed.first cache handle]

theorem Unclosed.locked (unclosed : s.Unclosed) {after : Place} (valid : next.Valid)
    (locked : s.lock id after = some next) (fresh : Fresh s.handle after) : next.Unclosed := by
  unfold lock at locked
  split at locked
  · cases Option.some.inj locked
    refine ⟨valid,unclosed.lasting,unclosed.first,fun place member => ?_⟩
    rcases List.mem_or_eq_of_mem_set member with old | rfl
    · exact unclosed.fresh place old
    · exact fresh
  · cases locked

theorem advance_unclosed (unclosed : s.Unclosed) (found : s.places[id]? = some place)
    (advanced : s.advance id fault place = some next) : next.Unclosed := by
  have valid := advance_valid unclosed.valid found advanced
  have mine := unclosed.fresh place (List.mem_of_getElem? found)
  cases place with
  | check =>
    cases Option.some.inj advanced
    refine unclosed.goto valid ?_
    split
    · rfl
    · rename_i present
      exact unclosed.handle_some present
  | lockToOpen =>
    have locked : s.lock id .recheck = some next := advanced
    exact unclosed.locked valid locked rfl
  | recheck =>
    cases Option.some.inj advanced
    refine unclosed.goto valid ?_
    split
    · rfl
    · rename_i present
      exact unclosed.handle_some present
  | opening =>
    obtain ⟨_,closed⟩ := unclosed.valid.here found rfl
    have nothing : s.caches.length = 0 := by
      by_contra some_cache
      have first := List.getElem?_eq_getElem (Nat.pos_of_ne_zero some_cache)
      have opened := unclosed.lasting 0 _ first
      rw [opened] at first
      exact absurd ((closed 0).mp first) (by simp)
    simp only [advance] at advanced
    split at advanced
    · cases Option.some.inj advanced
      exact unclosed.goto valid rfl
    · cases Option.some.inj advanced
      refine ⟨valid,fun i isOpen present => ?_,unclosed.first,fun place member => ?_⟩
      · rcases mem_snoc_table present with old | ⟨_,same⟩
        · exact unclosed.lasting i isOpen old
        · exact same
      · rcases List.mem_or_eq_of_mem_set member with old | rfl
        · exact unclosed.fresh place old
        · exact nothing
  | assign cache =>
    cases Option.some.inj advanced
    obtain rfl : cache = 0 := mine
    refine ⟨valid,unclosed.lasting,fun cache same => (Option.some.inj same).symm,fun place member => ?_⟩
    rcases List.mem_or_eq_of_mem_set member with old | rfl
    · exact (unclosed.fresh place old).assigned
    · rfl
  | unlockOpened raised =>
    cases Option.some.inj advanced
    refine ⟨valid,unclosed.lasting,unclosed.first,fun place member => ?_⟩
    rcases List.mem_or_eq_of_mem_set member with old | rfl
    · exact unclosed.fresh place old
    · cases raised
      · exact mine
      · rfl
  | reading =>
    cases Option.some.inj advanced
    exact unclosed.goto valid ⟨mine,mine⟩
  | lockToClose | checkOpen | closing | clearing | unlockClosed _ => exact absurd mine.gets (by simp [Place.gets])
  | ended result => cases advanced

theorem step_unclosed {action : Action} (unclosed : s.Unclosed) (opens : action ≠ .closeCache)
    (stepped : s.step action = some next) : next.Unclosed := by
  have valid := step_valid unclosed.valid stepped
  cases action with
  | getCache =>
    cases Option.some.inj stepped
    refine ⟨valid,unclosed.lasting,unclosed.first,fun place member => ?_⟩
    rcases List.mem_append.mp member with old | new
    · exact unclosed.fresh place old
    · cases List.mem_singleton.mp new
      rfl
  | closeCache => exact absurd rfl opens
  | step id fault =>
    obtain ⟨place,found,advanced⟩ := Option.bind_eq_some_iff.mp stepped
    exact advance_unclosed unclosed found advanced

variable {actions : List Action}

theorem run_valid (ran : run step init actions = some s) : s.Valid :=
  run_preserves Valid (fun _ _ _ valid stepped => step_valid valid stepped) init_valid ran

theorem run_unclosed (opens : ∀ action ∈ actions, action ≠ .closeCache) (ran : run step init actions = some s) : s.Unclosed := by
  have started : init.Unclosed := ⟨init_valid,by simp [init],by simp [init],by simp [init]⟩
  have always : Throughout step (fun _ _ => True) init actions := throughout_of_all (fun _ _ => trivial) init actions
  refine run_preserves_throughout Unclosed (fun _ action => action ≠ .closeCache ∧ True) ?_ started (always.and opens) ran
  intro before action after unclosed meets stepped
  exact step_unclosed unclosed meets.1 stepped

theorem Unclosed.only (unclosed : s.Unclosed) (assigned : s.handle = some 0) : s.caches = [true] := by
  have opens : Opens s.caches (some 0) := by
    have consistent := unclosed.valid.consistent
    rcases inner : s.holder.bind (s.places[·]?) with _ | place
    · rw [inner,assigned] at consistent
      exact consistent
    · obtain ⟨id,_,found⟩ := Option.bind_eq_some_iff.mp inner
      have gets := (unclosed.fresh place (List.mem_of_getElem? found)).gets
      rw [inner,assigned] at consistent
      cases place with
      | opening | assign _ => exact absurd consistent.1 (by simp)
      | clearing => simp [Place.gets] at gets
      | _ => exact consistent
  apply List.ext_getElem?
  intro i
  cases i with
  | zero => exact (opens 0).mpr rfl
  | succ i =>
    rw [List.getElem?_eq_none (by simp : ([true] : List Bool).length ≤ i+1)]
    rw [Option.eq_none_iff_forall_ne_some]
    intro isOpen present
    have opened := unclosed.lasting (i+1) isOpen present
    rw [opened] at present
    exact absurd (Option.some.inj ((opens (i+1)).mp present)) (by simp)

/-- However the threads interleave, at most one cache is open, and while nobody holds the lock
it is the one of the handle. Where nobody closes it, every caller gets the same cache. -/
theorem handle_safe (ran : run step init actions = some s) :
    (∀ i j : Nat, s.caches[i]? = some true → s.caches[j]? = some true → i = j) ∧
    (s.holder = none → ∀ i : Nat, s.caches[i]? = some true ↔ s.handle = some i) ∧
    ((∀ action ∈ actions, action ≠ .closeCache) → ∀ (id : Nat) result, s.places[id]? = some (.ended (.returned result)) →
      result = some 0 ∧ s.handle = some 0 ∧ s.caches = [true]) := by
  have valid := run_valid ran
  refine ⟨fun i j first second => ?_,fun free i => ?_,fun opens id result found => ?_⟩
  · have one : ∃ cache, Opens s.caches cache := by
      have consistent := valid.consistent
      generalize s.holder.bind (s.places[·]?) = inner at consistent
      rcases inner with _ | place
      · exact ⟨_,consistent⟩
      · cases place with
        | opening | assign _ | clearing => exact ⟨_,consistent.2⟩
        | _ => exact ⟨_,consistent⟩
    obtain ⟨cache,opens⟩ := one
    exact Option.some.inj (((opens i).mp first).symm.trans ((opens j).mp second))
  · have consistent := valid.consistent
    rw [free] at consistent
    exact consistent i
  · have unclosed := run_unclosed opens ran
    obtain ⟨same,assigned⟩ := unclosed.fresh _ (List.mem_of_getElem? found)
    exact ⟨same,assigned,unclosed.only assigned⟩

/-- Two threads that both miss the handle at first, and get the same cache. -/
def twoGetters : List Action := [
  .getCache,.getCache,.step 0 false,.step 1 false,.step 1 false,.step 1 false,.step 1 false,.step 1 false,.step 1 false,
  .step 1 false,.step 0 false,.step 0 false,.step 0 false,.step 0 false]

theorem handle_safe_two : ∃ s, run step init twoGetters = some s ∧ s.caches = [true] := by
  have completes : (run step init twoGetters).map (·.places[0]?) = some (some (.ended (.returned (some 0)))) := by rfl
  obtain ⟨s,ran,first⟩ := Option.map_eq_some_iff.mp completes
  exact ⟨s,ran,((handle_safe ran).2.2 (by decide) 0 (some 0) first).2.2⟩

end Threads

end YPriceMagic.Server.CacheHandle
