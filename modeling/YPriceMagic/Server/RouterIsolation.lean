import Mathlib.Data.List.Induction
import YPriceMagic.Server.UniswapPrewarm

/-! The routers of a warm-up that is not required against each other: a load gets over the failure
of its scans, so the caller's gather never sees one and never has the other loads cancelled. -/
namespace YPriceMagic.Server
open YPriceMagic.Async YPriceMagic.Async.Coroutine YPriceMagic.Async.Forest

namespace UniswapPrewarm

section
variable (finish : Outcome Exn Unit → WarmScript Unit)

/-- What follows the join, where `finish` is what surrounds the two gathers. -/
def joining (gathered : Outcome Exn Unit) : Outcome Exn Unit → WarmScript Unit :=
  fun joined => (onValue (fun _ => finished gathered) joined).andThen finish

def gathering (tasks : List Nat) : Outcome Exn Unit → WarmScript Unit :=
  fun gathered => perform (.cancel tasks) fun _ => perform (.await (.join tasks)) (joining finish gathered)

theorem proceed_owning (kinds : List Warming) (s : WarmForest) (id : Nat) :
    s.proceed id ((owning kinds).andThen finish) =
      Forest.stand (s++kinds.map fun kind => {kind,parent := some id}) id
        (.suspended (.gather (List.range' s.length kinds.length)) (gathering finish (List.range' s.length kinds.length))) := by
  have unfolded : (owning kinds).andThen finish = (Script.spawnAll kinds).andThen fun outcome =>
      (onValue (fun tasks => (Script.gather tasks).tryFinally (Script.reap tasks)) outcome).andThen finish :=
    andThen_assoc _ _ _
  rw [unfolded,proceed_spawnAll]
  rfl

end

def handling (error : Exn) : WarmScript Unit := if (false = true) then raise error else pure ()

section
variable (protocols : Protocols)

def reading : Outcome Exn Nat → WarmScript Unit :=
  fun read => (finished read).andThen (onValue fun block => owning ((routers protocols).map (.load · block false)))

inductive CallerAt : Standing Warming Scan.Answer Exn → Prop
  | created : CallerAt .created
  | reading : CallerAt (.suspended (.call .headBlock) (reading protocols))
  | gathering (loads : List Nat) : CallerAt (.suspended (.gather loads) (gathering finished loads))
  | joining (loads : List Nat) (gathered : Outcome Exn Unit) : CallerAt (.suspended (.join loads) (joining finished gathered))
  | ended (outcome : Outcome Exn Unit) : CallerAt (.ended outcome)

inductive LoadAt : Standing Warming Scan.Answer Exn → Prop
  | created : LoadAt .created
  | gathering (scans : List Nat) : LoadAt (.suspended (.gather scans) (gathering (onError handling) scans))
  | joining (scans : List Nat) (gathered : Outcome Exn Unit) (uncancelled : gathered ≠ .cancelled) :
      LoadAt (.suspended (.join scans) (joining (onError handling) gathered))
  | ended : LoadAt (.ended (.returned ()))

inductive ScanAt (router : Router) (token : String) (block : Nat) : Standing Warming Scan.Answer Exn → Prop
  | created : ScanAt router token block .created
  | reading : ScanAt router token block (.suspended (.call (.routerMetadata router token block))
      fun read => (finished read).andThen (onValue fun _ => pure ()))
  | ended (outcome : Outcome Exn Unit) : ScanAt router token block (.ended outcome)

def afterGather : Standing Warming Scan.Answer Exn → Bool
  | .suspended (.join _) _ | .ended _ => true
  | _ => false

/-- A scan of the same load failed, and the load has left its gather. -/
def Excused (s : WarmForest) (node : Node Warming Scan.Answer Exn) : Prop :=
  ∃ (load sibling : Nat) (loader : Node Warming Scan.Answer Exn) (error : Exn), node.parent = some load ∧ s[load]? = some loader ∧
    afterGather loader.standing = true ∧ s.Creates load sibling ∧ s.outcome sibling = some (.raised error)

def StandsAt : Warming → Standing Warming Scan.Answer Exn → Prop
  | .prewarmUniswap _,standing => CallerAt protocols standing
  | .load _ _ _,standing => LoadAt standing
  | .consumeRouter router token block,standing => ScanAt router token block standing
  | _,_ => False

def scanning : Warming → Bool
  | .consumeRouter _ _ _ => true
  | _ => false

structure AtPeace (s : WarmForest) (node : Node Warming Scan.Answer Exn) : Prop where
  stands : StandsAt protocols node.kind node.standing
  requested : node.cancelRequested = true → scanning node.kind = true ∧ Excused s node
  cancelled : scanning node.kind = true → node.outcome = some .cancelled → Excused s node

/-- All tasks are the caller, its loads or their scans. -/
def Below (s : WarmForest) : Prop :=
  ∀ (id : Nat) (node : Node Warming Scan.Answer Exn), s[id]? = some node → Within false node.kind

/-- No load was asked to cancel, and a scan was only for the failure of another one of its load. -/
def Calm (s : WarmForest) : Prop :=
  ∀ (id : Nat) (node : Node Warming Scan.Answer Exn), s[id]? = some node → AtPeace protocols s node

end

/-- The caller is left alone, and no scan ends cancelled unless it was asked to. -/
def Undisturbed (s : WarmForest) : Move → Prop
  | .cancelCaller => False
  | .answer id (.call (.routerMetadata _ _ _)) .cancelled => s.Asked id
  | _ => True

section
variable {protocols : Protocols} {s next : WarmForest} {id : Nat} {node later : Node Warming Scan.Answer Exn}

theorem Excused.move (excused : Excused s node) (moved : Moved id s next) (idle : s.outcome id = none) (here : s[id]? = some later)
    {after : Node Warming Scan.Answer Exn} (there : next[id]? = some after)
    (kept : afterGather later.standing = true → afterGather after.standing = true) {same : Node Warming Scan.Answer Exn}
    (parent : same.parent = node.parent) : Excused next same := by
  obtain ⟨load,sibling,loader,error,mine,found,past,created,raised⟩ := excused
  have extended := moved.extends idle
  have still : ∃ loader' : Node Warming Scan.Answer Exn, next[load]? = some loader' ∧ afterGather loader'.standing = true := by
    by_cases own : load = id
    · subst own
      cases Option.some.inj (here.symm.trans found)
      exact ⟨after,there,kept past⟩
    · obtain ⟨loader',found',core⟩ := core_some (moved.others load (List.getElem?_eq_some_iff.mp found).1 own) found
      exact ⟨loader',found',by rw [(outcome_of_core core).2.2.1]; exact past⟩
  obtain ⟨loader',found',past'⟩ := still
  exact ⟨load,sibling,loader',error,parent.trans mine,found',past',created.mono extended,extended.outcome raised⟩

theorem stands_created {kind : Warming} (within : Within false kind) : StandsAt protocols kind .created := by
  cases kind with
  | prewarmUniswap => exact .created
  | load => exact .created
  | consumeRouter => exact .created
  | _ => exact within.elim

theorem Calm.move (calm : Calm protocols s) (here : s[id]? = some node) (idle : s.outcome id = none) (moved : Moved id s next)
    (there : next[id]? = some later) (kept : afterGather node.standing = true → afterGather later.standing = true) (within : Below next)
    (asked : ∀ (other : Nat) (child : Node Warming Scan.Answer Exn), other ≠ id → next[other]? = some child → child.cancelRequested = true →
      s.Asked other ∨ (scanning child.kind = true ∧ Excused next child))
    (peace : AtPeace protocols next later) : Calm protocols next := by
  intro other child found
  by_cases own : other = id
  · subst own
    cases Option.some.inj (there.symm.trans found)
    exact peace
  by_cases old : other < s.length
  · obtain ⟨before,known,core⟩ := core_some (moved.others other old own).symm found
    obtain ⟨kind,parent,standing,outcome⟩ := outcome_of_core core
    have calmed := calm other before known
    refine ⟨by rw [← kind,← standing]; exact calmed.stands,fun requested => ?_,fun scan ended => ?_⟩
    · rcases asked other child own found requested with ⟨same,again,still⟩ | excused
      · cases Option.some.inj (known.symm.trans again)
        obtain ⟨scan,excused⟩ := calmed.requested still
        exact ⟨by rw [← kind]; exact scan,excused.move moved idle here there kept parent.symm⟩
      · exact excused
    · have excused := calmed.cancelled (by rw [kind]; exact scan) (outcome.trans ended)
      exact excused.move moved idle here there kept parent.symm
  · obtain ⟨standing,_⟩ := moved.created other child (Nat.not_lt.mp old) found
    refine ⟨by rw [standing]; exact stands_created (within other child found),fun requested => ?_,fun _ ended => ?_⟩
    · refine (asked other child own found requested).resolve_left ?_
      rintro ⟨same,again,_⟩
      exact old (List.getElem?_eq_some_iff.mp again).1
    · simp [Node.outcome,standing] at ended

theorem AtPeace.stood {standing : Standing Warming Scan.Answer Exn} (stands : StandsAt protocols node.kind standing)
    (unscanned : scanning node.kind = false) : AtPeace protocols next (node.stand standing) :=
  ⟨stands,fun requested => by contradiction,fun scan => by simp [Node.stand,unscanned] at scan⟩

theorem Calm.unasked (calm : Calm protocols s) (here : s[id]? = some node) (unscanned : scanning node.kind = false) :
    node.cancelRequested = false := by
  by_contra requested
  have scan := ((calm id node here).requested (by simpa using requested)).1
  simp [unscanned] at scan

theorem Calm.stand (calm : Calm protocols s) (here : s[id]? = some node) (running : node.outcome = none)
    {standing : Standing Warming Scan.Answer Exn} (goes : next = s.stand id standing)
    (within : Below next) (kept : afterGather node.standing = true → afterGather standing = true)
    (peace : AtPeace protocols next (node.stand standing)) : Calm protocols next := by
  subst goes
  refine calm.move here (unended here running) (Moved.stand id s standing) (stand_self here standing) kept within ?_ peace
  exact fun other child apart found requested => Or.inl (stand_asked apart ⟨child,found,requested⟩)

theorem kids_asked {kinds : List Warming} {other : Nat}
    (asked : Asked (s++kinds.map fun kind => ({kind,parent := some id} : Node Warming Scan.Answer Exn)) other) : s.Asked other := by
  obtain ⟨child,found,requested⟩ := asked
  rw [List.getElem?_append] at found
  split at found
  · exact ⟨child,found,requested⟩
  · rw [List.getElem?_map] at found
    obtain ⟨kind,_,rfl⟩ := Option.map_eq_some_iff.mp found
    contradiction

theorem Calm.own (calm : Calm protocols s) (here : s[id]? = some node) (running : node.outcome = none) (unscanned : scanning node.kind = false)
    (finish : Outcome Exn Unit → WarmScript Unit) (kinds : List Warming) (goes : next = s.proceed id ((owning kinds).andThen finish))
    (within : Below next) (early : afterGather node.standing = false)
    (stands : ∀ tasks, StandsAt protocols node.kind (.suspended (.gather tasks) (gathering finish tasks))) : Calm protocols next := by
  have inside := (List.getElem?_eq_some_iff.mp here).1
  have moved := proceed_moved inside ((owning kinds).andThen finish)
  rw [← goes] at moved
  rw [proceed_owning] at goes
  subst goes
  have still : (s++kinds.map fun kind => ({kind,parent := some id} : Node Warming Scan.Answer Exn))[id]? = some node := by
    rw [List.getElem?_append_left inside]
    exact here
  refine calm.move here (unended here running) moved (stand_self still _) (by simp [early]) within ?_ (AtPeace.stood (stands _) unscanned)
  exact fun other child apart found requested => Or.inl (kids_asked (stand_asked apart ⟨child,found,requested⟩))

section
variable {moves : List Move}

theorem scan_leaf (ran : run (warmStep protocols) [] (schedule false moves) = some s) {scan : Nat} {child : Node Warming Scan.Answer Exn}
    (found : s[scan]? = some child) (scans : scanning child.kind = true) : s.forwards scan = [] := by
  have wired := run_wired ran (run_minded ran)
  rw [List.eq_nil_iff_forall_not_mem]
  intro task passed
  obtain ⟨grandchild,there,mine⟩ := wired.forwards passed
  have fosters := run_children ran found (run_minded ran scan child found) there mine
  cases kind : child.kind with
  | consumeRouter =>
    rw [kind] at fosters
    exact fosters.elim
  | _ =>
    rw [kind] at scans
    contradiction

theorem load_creates (ran : run (warmStep protocols) [] (schedule false moves) = some s) (here : s[id]? = some node) {router : Router}
    {block : Nat} {mode : Bool} (kind : node.kind = .load router block mode) {scan : Nat} (created : s.Creates id scan) :
    ∃ child : Node Warming Scan.Answer Exn, s[scan]? = some child ∧ child.parent = some id ∧ scanning child.kind = true := by
  obtain ⟨child,found,mine⟩ := created
  have fosters := run_children ran here (run_minded ran id node here) found mine
  rw [kind] at fosters
  obtain ⟨token,same⟩ := fosters
  exact ⟨child,found,mine,by rw [same]; rfl⟩

/-- A load whose gather is answered cancels the scans that the failure of another one left running. -/
theorem Calm.reap (calm : Calm protocols s) (ran : run (warmStep protocols) [] (schedule false moves) = some s) (here : s[id]? = some node)
    {router : Router} {block : Nat} {mode : Bool} (kind : node.kind = .load router block mode) {scans : List Nat}
    (waiting : node.standing = .suspended (.gather scans) (gathering (onError handling) scans)) {gathered : Outcome Exn Unit}
    (admitted : s.admits node.cancelRequested (.gather scans) gathered = true) (goes : next = s.proceed id (gathering (onError handling) scans gathered))
    (within : Below next) : Calm protocols next := by
  have running : node.outcome = none := by simp [Node.outcome,waiting]
  have unasked := calm.unasked here (by rw [kind]; rfl)
  have wired := run_wired ran (run_minded ran)
  have created : ∀ scan ∈ scans, s.Creates id scan := wired id node (.gather scans) _ here waiting
  have moved : Moved id s next := by
    rw [goes]
    exact proceed_moved (List.getElem?_eq_some_iff.mp here).1 _
  have extended := moved.extends (unended here running)
  have goes : next = (s.cancel scans).stand id (.suspended (.join scans) (joining (onError handling) gathered)) := goes
  obtain ⟨after,there,core⟩ := core_some (same_core (cancel_core s scans) id) here
  have itself : next[id]? = some (after.stand (.suspended (.join scans) (joining (onError handling) gathered))) := by
    rw [goes]
    exact stand_self there _
  have uncancelled : gathered ≠ .cancelled := by
    rintro rfl
    simp only [admits,unasked,Bool.false_and,Bool.or_false,List.any_eq_true,decide_eq_true_eq] at admitted
    obtain ⟨scan,member,ended⟩ := admitted
    obtain ⟨child,found,mine,scanned⟩ := load_creates ran here kind (created scan member)
    obtain ⟨same,again,cancelled⟩ := outcome_some.mp ended
    cases Option.some.inj (found.symm.trans again)
    obtain ⟨load,_,loader,_,above,present,past,_⟩ := (calm scan child found).cancelled scanned cancelled
    cases Option.some.inj (mine.symm.trans above)
    cases Option.some.inj (here.symm.trans present)
    simp [waiting,afterGather] at past
  refine calm.move here (unended here running) moved itself (fun _ => rfl) within ?_ (AtPeace.stood ?_ ?_)
  · intro other child apart found requested
    have reaped : (s.cancel scans).Asked other := stand_asked apart ⟨child,by rwa [goes] at found,requested⟩
    refine (cancel_asked reaped).imp_right ?_
    rintro ⟨unfinished,hit⟩
    have leaves : ∀ scan ∈ scans, s.forwards scan = [] := by
      intro scan member
      obtain ⟨_,found,_,scanned⟩ := load_creates ran here kind (created scan member)
      exact scan_leaf ran found scanned
    rw [reached_leaves leaves] at hit
    obtain ⟨before,known,mine,scanned⟩ := load_creates ran here kind (created other hit)
    obtain ⟨same,again,kind',parent',_⟩ := extended other before known
    cases Option.some.inj (found.symm.trans again)
    refine ⟨by rw [kind']; exact scanned,?_⟩
    cases gathered with
    | returned value =>
      simp only [admits,Bool.and_eq_true,List.all_eq_true,decide_eq_true_eq] at admitted
      simp [Forest.done,admitted.2 other hit] at unfinished
    | raised error =>
      simp only [admits,List.any_eq_true,decide_eq_true_eq] at admitted
      obtain ⟨sibling,member,failed⟩ := admitted
      exact ⟨id,sibling,_,error,parent'.trans mine,itself,rfl,(created sibling member).mono extended,extended.outcome failed⟩
    | cancelled => exact absurd rfl uncancelled
  · rw [(outcome_of_core core).1,kind]
    exact .joining scans gathered uncancelled
  · rw [(outcome_of_core core).1,kind]
    rfl

theorem Calm.enter (calm : Calm protocols s) (ran : run (warmStep protocols) [] (schedule false moves) = some s)
    (entered : s.enter (warmingCode protocols) id = some next)
    (within : Below next) : Calm protocols next := by
  obtain ⟨node,here,created,goes⟩ := enter_some entered
  have running : node.outcome = none := by simp [Node.outcome,created]
  have early : afterGather node.standing = false := by simp [created,afterGather]
  have own := run_kinds ran here
  cases kind : node.kind with
  | prewarmUniswap mode =>
    rw [kind] at own
    cases own
    rw [calm.unasked here (by rw [kind]; rfl),kind] at goes
    have goes : next = s.stand id (.suspended (.call .headBlock) (reading protocols)) := goes
    refine calm.stand here running goes within (by simp [early]) (AtPeace.stood ?_ ?_) <;> rw [kind]
    · exact .reading
    · rfl
  | load router block mode =>
    rw [kind] at own
    cases own
    rw [calm.unasked here (by rw [kind]; rfl),kind] at goes
    refine calm.own here running (by rw [kind]; rfl) (onError handling) _ goes within early fun tasks => ?_
    rw [kind]
    exact .gathering tasks
  | consumeRouter router token block =>
    cases requested : node.cancelRequested with
    | true =>
      have goes : next = s.stand id (.ended .cancelled) := by simpa [requested,proceed] using goes
      have peace := (calm id node here).requested requested
      have there : next[id]? = some (node.stand (.ended .cancelled)) := by
        rw [goes]
        exact stand_self here _
      have excused : Excused next (node.stand (.ended .cancelled)) := by
        have moved := Moved.stand id s (.ended .cancelled)
        rw [← goes] at moved
        exact peace.2.move moved (unended here running) here there (fun _ => rfl) rfl
      refine calm.stand here running goes within (fun _ => rfl) ⟨?_,fun asked => by contradiction,fun _ _ => excused⟩
      change StandsAt protocols node.kind _
      rw [kind]
      exact .ended .cancelled
    | false =>
      rw [requested,kind] at goes
      have goes : next = s.stand id (.suspended (.call (.routerMetadata router token block))
        fun read => (finished read).andThen (onValue fun _ => pure ())) := goes
      refine calm.stand here running goes within (by simp [early]) ⟨?_,fun asked => by contradiction,fun _ ended => by contradiction⟩
      change StandsAt protocols node.kind _
      rw [kind]
      exact .reading
  | _ =>
    rw [kind] at own
    exact own.elim

theorem Calm.loads_returned (calm : Calm protocols s) (ran : run (warmStep protocols) [] (schedule false moves) = some s)
    (here : s[id]? = some node) {mode : Bool} (kind : node.kind = .prewarmUniswap mode) {load : Nat} (created : s.Creates id load)
    {outcome : Outcome Exn Unit} (ended : s.outcome load = some outcome) : outcome = .returned () := by
  obtain ⟨loader,found,mine⟩ := created
  have fosters := run_children ran here (run_minded ran id node here) found mine
  rw [kind] at fosters
  obtain ⟨router,block,loading⟩ := fosters
  have stands := (calm load loader found).stands
  obtain ⟨same,there,finished⟩ := outcome_some.mp ended
  cases Option.some.inj (found.symm.trans there)
  rw [loading] at stands
  cases standing : loader.standing with
  | created | suspended => simp [Node.outcome,standing] at finished
  | ended ending =>
    rw [standing] at stands
    cases stands
    simpa [Node.outcome,standing] using finished.symm

theorem Calm.answer_caller (calm : Calm protocols s) (ran : run (warmStep protocols) [] (schedule false moves) = some s)
    (here : s[id]? = some node) {mode : Bool} (kind : node.kind = .prewarmUniswap mode) {awaited : Await Scan}
    {resume : awaited.Reply Scan.Answer Exn → WarmScript Unit} {reply : awaited.Reply Scan.Answer Exn}
    (waiting : node.standing = .suspended awaited resume) (admitted : s.admits node.cancelRequested awaited reply = true)
    (goes : next = s.proceed id (resume reply))
    (within : Below next) : Calm protocols next := by
  have running : node.outcome = none := by simp [Node.outcome,waiting]
  have unscanned : scanning node.kind = false := by rw [kind]; rfl
  have unasked := calm.unasked here unscanned
  have created := run_wired ran (run_minded ran) id node awaited resume here waiting
  have stands := (calm id node here).stands
  have caller {standing : Standing Warming Scan.Answer Exn} (stage : CallerAt protocols standing) : AtPeace protocols next (node.stand standing) := by
    refine AtPeace.stood ?_ unscanned
    rw [kind]
    exact stage
  rw [kind,waiting] at stands
  have stands : CallerAt protocols (.suspended awaited resume) := stands
  cases stands with
  | reading =>
    cases reply with
    | returned block =>
      have goes : next = s.proceed id ((owning ((routers protocols).map (.load · block false))).andThen finished) := by
        rw [andThen_finished]
        exact goes
      refine calm.own here running unscanned finished _ goes within (by simp [waiting,afterGather]) fun tasks => ?_
      rw [kind]
      exact .gathering tasks
    | raised | cancelled => exact calm.stand here running goes within (fun _ => rfl) (caller (.ended _))
  | gathering loads =>
    have done : ∀ load ∈ loads, s.done load = true := by
      cases reply with
      | returned value =>
        simp only [admits,Bool.and_eq_true,List.all_eq_true,decide_eq_true_eq] at admitted
        intro load member
        simp [Forest.done,admitted.2 load member]
      | raised error =>
        simp only [admits,List.any_eq_true,decide_eq_true_eq] at admitted
        obtain ⟨load,member,failed⟩ := admitted
        have returned := calm.loads_returned ran here kind (created load member) failed
        contradiction
      | cancelled =>
        simp only [admits,unasked,Bool.false_and,Bool.or_false,List.any_eq_true,decide_eq_true_eq] at admitted
        obtain ⟨load,member,failed⟩ := admitted
        have returned := calm.loads_returned ran here kind (created load member) failed
        contradiction
    have goes : next = s.stand id (.suspended (.join loads) (joining finished reply)) := by
      have cancels : next = (s.cancel loads).stand id (.suspended (.join loads) (joining finished reply)) := goes
      rwa [cancel_done done] at cancels
    exact calm.stand here running goes within (fun _ => rfl) (caller (.joining loads reply))
  | joining loads gathered =>
    cases reply <;> exact calm.stand here running goes within (fun _ => rfl) (caller (.ended _))

theorem Calm.answer_load (calm : Calm protocols s) (ran : run (warmStep protocols) [] (schedule false moves) = some s)
    (here : s[id]? = some node) {router : Router} {block : Nat} {mode : Bool} (kind : node.kind = .load router block mode)
    {awaited : Await Scan} {resume : awaited.Reply Scan.Answer Exn → WarmScript Unit} {reply : awaited.Reply Scan.Answer Exn}
    (waiting : node.standing = .suspended awaited resume) (admitted : s.admits node.cancelRequested awaited reply = true)
    (goes : next = s.proceed id (resume reply))
    (within : Below next) : Calm protocols next := by
  have running : node.outcome = none := by simp [Node.outcome,waiting]
  have unscanned : scanning node.kind = false := by rw [kind]; rfl
  have unasked := calm.unasked here unscanned
  have stands := (calm id node here).stands
  rw [kind,waiting] at stands
  have stands : LoadAt (.suspended awaited resume) := stands
  cases stands with
  | gathering scans => exact calm.reap ran here kind waiting admitted goes within
  | joining scans gathered uncancelled =>
    have peace : AtPeace protocols next (node.stand (.ended (.returned ()))) := by
      refine AtPeace.stood ?_ unscanned
      rw [kind]
      exact .ended
    simp only [admits,unasked,Bool.and_eq_true,decide_eq_true_eq] at admitted
    cases admitted.2
    cases gathered with
    | returned value => exact calm.stand here running goes within (fun _ => rfl) peace
    | raised error => exact calm.stand here running goes within (fun _ => rfl) peace
    | cancelled => exact absurd rfl uncancelled

theorem Calm.answer_scan (calm : Calm protocols s) (here : s[id]? = some node) {router : Router} {token : String} {block : Nat}
    (kind : node.kind = .consumeRouter router token block) {awaited : Await Scan}
    {resume : awaited.Reply Scan.Answer Exn → WarmScript Unit} {reply : awaited.Reply Scan.Answer Exn}
    (waiting : node.standing = .suspended awaited resume) (goes : next = s.proceed id (resume reply))
    (undisturbed : Undisturbed s (.answer id awaited reply))
    (within : Below next) : Calm protocols next := by
  have running : node.outcome = none := by simp [Node.outcome,waiting]
  have stands := (calm id node here).stands
  rw [kind,waiting] at stands
  have stands : ScanAt router token block (.suspended awaited resume) := stands
  have ended (outcome : Outcome Exn Unit) : StandsAt protocols node.kind (.ended outcome) := by
    rw [kind]
    exact .ended outcome
  cases stands with
  | reading =>
    cases reply with
    | returned count =>
      exact calm.stand here running goes within (fun _ => rfl) ⟨ended (.returned ()),fun asked => by contradiction,
        fun _ closed => by simp [Node.outcome,Node.stand] at closed⟩
    | raised error =>
      exact calm.stand here running goes within (fun _ => rfl) ⟨ended (.raised error),fun asked => by contradiction,
        fun _ closed => by simp [Node.outcome,Node.stand] at closed⟩
    | cancelled =>
      obtain ⟨same,again,requested⟩ := undisturbed
      cases Option.some.inj (here.symm.trans again)
      have goes : next = s.stand id (.ended .cancelled) := goes
      have there : next[id]? = some (node.stand (.ended .cancelled)) := by
        rw [goes]
        exact stand_self here _
      have moved := Moved.stand id s (.ended .cancelled)
      rw [← goes] at moved
      have excused : Excused next (node.stand (.ended .cancelled)) :=
        ((calm id node here).requested requested).2.move moved (unended here running) here there (fun _ => rfl) rfl
      exact calm.stand here running goes within (fun _ => rfl) ⟨ended .cancelled,fun asked => by contradiction,fun _ _ => excused⟩

theorem step_calm {move : Move} (calm : Calm protocols s) (ran : run (warmStep protocols) [] (schedule false moves) = some s)
    (undisturbed : Undisturbed s move) (stepped : warmStep protocols s move.action = some next) : Calm protocols next := by
  have further : run (warmStep protocols) [] (schedule false (moves++[move])) = some next := by
    rw [schedule_snoc]
    exact run_snoc ran stepped
  have within : Below next := fun _ _ found => run_kinds further found
  cases move with
  | cancelCaller => exact undisturbed.elim
  | enter id => exact calm.enter ran stepped within
  | answer id awaited reply =>
    obtain ⟨node,resume,here,waiting,admitted,goes⟩ := answer_some stepped
    have own := run_kinds ran here
    cases kind : node.kind with
    | prewarmUniswap mode => exact calm.answer_caller ran here kind waiting admitted goes within
    | load router block mode => exact calm.answer_load ran here kind waiting admitted goes within
    | consumeRouter router token block => exact calm.answer_scan here kind waiting goes undisturbed within
    | _ =>
      rw [kind] at own
      exact own.elim

/-- The caller was cancelled, or the scan of a router ended cancelled that nobody had asked to. -/
def Disturbed (protocols : Protocols) (required : Bool) (moves : List Move) : Prop :=
  .cancelCaller ∈ moves ∨ ∃ (before after : List Move) (scan : Nat) (router : Router) (token : String) (block : Nat) (middle : WarmForest),
    moves = before++.answer scan (.call (.routerMetadata router token block)) .cancelled::after ∧
    run (warmStep protocols) [] (schedule required before) = some middle ∧ ¬middle.Asked scan

theorem Disturbed.onwards {required : Bool} (disturbed : Disturbed protocols required moves) (more : List Move) :
    Disturbed protocols required (moves++more) := by
  rcases disturbed with cancelled | ⟨before,after,scan,router,token,block,middle,rfl,rest⟩
  · exact Or.inl (List.mem_append_left more cancelled)
  · exact Or.inr ⟨before,after++more,scan,router,token,block,middle,by simp,rest⟩

theorem disturbed_now {move : Move} (ran : run (warmStep protocols) [] (schedule false moves) = some s) (disturbed : ¬Undisturbed s move) :
    Disturbed protocols false (moves++[move]) := by
  cases move with
  | cancelCaller => exact Or.inl (by simp)
  | enter id => exact absurd trivial disturbed
  | answer id awaited reply =>
    cases awaited with
    | call scan =>
      cases scan with
      | routerMetadata router token block =>
        cases reply with
        | cancelled => exact Or.inr ⟨moves,[],id,router,token,block,s,rfl,ran,disturbed⟩
        | returned | raised => exact absurd trivial disturbed
      | _ => exact absurd trivial disturbed
    | task | gather | join | group | firstOf => exact absurd trivial disturbed

theorem run_calm (ran : run (warmStep protocols) [] (schedule false moves) = some s) : Disturbed protocols false moves ∨ Calm protocols s := by
  induction moves using List.reverseRecOn generalizing s with
  | nil =>
    cases Option.some.inj ran
    refine Or.inr fun id node found => ?_
    obtain ⟨_,rfl⟩ : id = 0 ∧ node = {kind := .prewarmUniswap false,parent := none} := by
      rcases mem_snoc_table found with old | only
      · simp at old
      · exact only
    exact ⟨.created,fun asked => by contradiction,fun scan => by contradiction⟩
  | append_singleton moves move ih =>
    rw [schedule_snoc] at ran
    obtain ⟨middle,ranBefore,stepped⟩ := run_append_some ran
    rw [run_single] at stepped
    rcases ih ranBefore with disturbed | calm
    · exact Or.inl (disturbed.onwards [move])
    · by_cases undisturbed : Undisturbed middle move
      · exact Or.inr (step_calm calm ranBefore undisturbed stepped)
      · exact Or.inl (disturbed_now ranBefore undisturbed)

/-- A scan that was cancelled has seen another one of its router fail, if the caller was left alone. -/
theorem cancelled_by_own (ran : run (warmStep protocols) [] (schedule false moves) = some s) {load scan : Nat} (above : s.Creates 0 load)
    (below : s.Creates load scan) (cancelled : s.Asked scan ∨ s.outcome scan = some .cancelled) :
    (∃ sibling error, s.Creates load sibling ∧ s.outcome sibling = some (.raised error)) ∨ Disturbed protocols false moves := by
  rcases run_calm ran with disturbed | calm
  · exact Or.inr disturbed
  · left
    obtain ⟨child,found,mine⟩ := below
    obtain ⟨router,token,block,kind⟩ := scan_kind ran above found mine
    have scans : scanning child.kind = true := by rw [kind]; rfl
    have excused : Excused s child := by
      rcases cancelled with ⟨same,again,requested⟩ | ended
      · cases Option.some.inj (found.symm.trans again)
        exact ((calm scan child found).requested requested).2
      · obtain ⟨same,again,closed⟩ := outcome_some.mp ended
        cases Option.some.inj (found.symm.trans again)
        exact (calm scan child found).cancelled scans closed
    obtain ⟨own,sibling,_,error,parent,_,_,created,raised⟩ := excused
    cases Option.some.inj (mine.symm.trans parent)
    exact ⟨sibling,error,created,raised⟩

/-- Whatever happens to the scans and whenever the caller is cancelled: nothing is left running,
a required warm-up returns with all of its scans or not at all, and one that is not required
has a scan cancelled for no failure but that of another scan of its router. -/
theorem prewarmUniswap_joins (required : Bool) (moves : List Move) (s : WarmForest)
    (ran : run (warmStep protocols) [] (schedule required moves) = some s) :
    (s.done 0 = true → ∀ task, Relation.ReflTransGen s.Creates 0 task → s.done task = true) ∧
    (required = true → ∀ outcome, s.outcome 0 = some outcome → (∃ error, outcome = .raised error) ∨ outcome = .cancelled ∨
      (outcome = .returned () ∧ (∀ task, Relation.ReflTransGen s.Creates 0 task → s.outcome task = some (.returned ())) ∧
        ∀ router ∈ routers protocols, ∀ token ∈ usdcTokens protocols, ∃ (load scan block : Nat) (child : Node Warming Scan.Answer Exn),
          s.Creates 0 load ∧ s[scan]? = some child ∧ child.parent = some load ∧ child.kind = .consumeRouter router token block)) ∧
    (required = false → ∀ load, s.Creates 0 load → (∀ error, s.outcome load ≠ some (.raised error)) ∧
      ∀ scan, s.Creates load scan → (s.Asked scan ∨ s.outcome scan = some .cancelled) →
        (∃ sibling error, s.Creates load sibling ∧ s.outcome sibling = some (.raised error)) ∨ Disturbed protocols required moves) := by
  refine ⟨fun ended task below => no_scan_left ran ended below,?_,?_⟩
  · rintro rfl outcome ended
    cases outcome with
    | raised error => exact Or.inl ⟨error,rfl⟩
    | cancelled => exact Or.inr (Or.inl rfl)
    | returned value =>
      exact Or.inr (Or.inr ⟨rfl,fun task below => all_returned ran ended below,fun router listed token stable => all_scanned ran ended listed stable⟩)
  · rintro rfl load above
    refine ⟨fun error raised => ?_,fun scan below cancelled => cancelled_by_own ran above below cancelled⟩
    obtain ⟨child,found,mine⟩ := above
    obtain ⟨router,block,kind⟩ := load_kind ran found mine
    have quiet : Quiet (warmingCode protocols child.kind) := by
      rw [kind]
      exact load_quiet protocols router block
    obtain ⟨same,again,closed⟩ := outcome_some.mp raised
    cases Option.some.inj (found.symm.trans again)
    exact quiet_never_raised ran found quiet error closed

end
end

def twoRouters : Protocols := ⟨"base",false,[("0xusdc","usdc")],["uniswap v2"],some "uniswap v3",[]⟩

/-- The scan of the first router fails; that of the second goes on. -/
def oneFails : List Move := [.enter 0,.answer 0 (.call .headBlock) (.returned (7 : Nat)),.enter 1,.enter 2,.enter 3,.enter 4,
  .answer 3 (.call (.routerMetadata ⟨"v2","uniswap v2"⟩ "0xusdc" 7)) (.raised (.value "")),.answer 1 (.gather [3]) (.raised (.value "")),
  .answer 1 (.join [3]) (.returned ()),.answer 4 (.call (.routerMetadata ⟨"v3","uniswap v3"⟩ "0xusdc" 7)) (.returned (5 : Nat)),
  .answer 2 (.gather [4]) (.returned ()),.answer 2 (.join [4]) (.returned ()),.answer 0 (.gather [1,2]) (.returned ()),
  .answer 0 (.join [1,2]) (.returned ())]

theorem prewarmUniswap_joins_one_fails : ∃ s, run (warmStep twoRouters) [] (schedule false oneFails) = some s ∧ s.done 4 = true ∧
    ∀ error, s.outcome 1 ≠ some (.raised error) := by
  have ran : run (warmStep twoRouters) [] (schedule false oneFails) =
      some ((run (warmStep twoRouters) [] (schedule false oneFails)).get rfl) := (Option.some_get _).symm
  have joined := prewarmUniswap_joins false oneFails _ ran
  refine ⟨_,ran,joined.1 rfl 4 ?_,(joined.2.2 rfl 1 ⟨_,rfl,rfl⟩).1⟩
  exact (Relation.ReflTransGen.single ⟨_,rfl,rfl⟩ : Relation.ReflTransGen _ 0 2).tail ⟨_,rfl,rfl⟩

end UniswapPrewarm
end YPriceMagic.Server
