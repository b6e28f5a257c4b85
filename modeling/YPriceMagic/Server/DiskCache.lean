import YPriceMagic.Python.ExpiringStore
import YPriceMagic.Server.Cache
import YPriceMagic.Server.ParamsTotal

/-! The disk cache as it is stored: string keys, dictionaries, lifetimes and enumeration. It
refines a map from a token in lower case and a block to the last write, unless that has expired. -/
namespace YPriceMagic.Server
open YPriceMagic.Python

/-- A stored dictionary, with the time of the write. -/
structure DiskEntry extends Entry where
  cachedAt : String
  deriving DecidableEq, Repr

abbrev DiskCache := ExpiringStore String DiskEntry

/-- The blocks that `str` converts. -/
def Printable (block : Int) : Prop := (Nat.toDigits 10 block.natAbs).length ≤ Numerals.maxStrDigits

instance (block : Int) : Decidable (Printable block) := inferInstanceAs (Decidable (_ ≤ _))

def str (number : Int) : Except Raised String :=
  if Printable number then .ok (toString number) else .error .valueError

/-- `text.rsplit(separator, 1)`, where the separator occurs. -/
def rsplit (separator : Char) (text : String) : Option (String × String) :=
  match text.toList.reverse.span (· ≠ separator) with
  | (_,[]) => none
  | (last,_::before) => some (String.ofList before.reverse,String.ofList last.reverse)

namespace DiskCache
variable (lower : String → String)

def key (token : String) (block : Int) : String := token ++ ":" ++ toString block

/-- `lower` is `str.lower`. -/
def makeKey (token : String) (block : Int) : Except Raised String := do
  return lower token ++ ":" ++ (← str block)

/-- `cache.get(make_key(token, block))`; what is raised is logged and reads as nothing. -/
def entryAt (cache : DiskCache) (token : String) (block : Int) : Option DiskEntry :=
  match makeKey lower token block with
  | .error _ => none
  | .ok key => cache.get key

def getCachedPrice (cache : DiskCache) (token : String) (block : Int) : Option DiskEntry :=
  (entryAt lower cache token block).bind fun entry => if entry.price.isSome then some entry else none

def getCachedError (cache : DiskCache) (token : String) (block : Int) : Option DiskEntry :=
  (entryAt lower cache token block).bind fun entry =>
    if entry.outcome = some "no_price" ∧ entry.error.isSome then some entry else none

/-- `cache.set(make_key(token, block), entry)`; what is raised is logged and nothing is written. -/
def put (cache : DiskCache) (token : String) (block : Int) (entry : DiskEntry) (life : Life) : DiskCache :=
  match makeKey lower token block with
  | .error _ => cache
  | .ok key => cache.set key entry life

/-- `now` is the current time. -/
def setCachedPrice (cache : DiskCache) (token : String) (block : Int) (price : PyFloat) (blockTimestamp : Option Int)
    (now : String) : DiskCache :=
  put lower cache token block ⟨⟨some price,blockTimestamp,none,none⟩,now⟩ .permanent

def setCachedError (cache : DiskCache) (token : String) (block : Int) (error now : String) : DiskCache :=
  put lower cache token block ⟨⟨none,none,some "no_price",some error⟩,now⟩ .timed

/-- One round of `get_cached_errors`; what it raises is logged and the key is passed over. -/
def errorAt (cache : DiskCache) (key : String) : Option (String × Int × DiskEntry) := do
  let entry ← cache.get key
  if entry.error.isNone then none
  else
    let (tokenLower,blockStr) ← rsplit ':' key
    match int blockStr with
    | .ok block => some (tokenLower,block,entry)
    | .error _ => none

def getCachedErrors (cache : DiskCache) : List (String × Int × DiskEntry) := cache.keys.filterMap cache.errorAt

/-- An entry expires, or is culled, by the token of its key. -/
inductive Action
  | setPrice (token : String) (block : Int) (price : PyFloat) (blockTimestamp : Option Int) (now : String)
  | setError (token : String) (block : Int) (error now : String)
  | expire (token : String) (block : Int)
  | cull (token : String) (block : Int)

def step (cache : DiskCache) : Action → DiskCache
  | .setPrice token block price blockTimestamp now => cache.setCachedPrice lower token block price blockTimestamp now
  | .setError token block error now => cache.setCachedError lower token block error now
  | .expire token block => cache.expire (key token block)
  | .cull token block => cache.cull (key token block)

def run (actions : List Action) : DiskCache := actions.foldl (step lower) ∅

inductive Write
  | price (value : PyFloat) (blockTimestamp : Option Int) (now : String)
  | error (text now : String)
  deriving DecidableEq, Repr

namespace Write

/-- The entry of a write; a price has the timestamp of its block. -/
def entry : Write → DiskEntry
  | price value blockTimestamp now => ⟨⟨some value,blockTimestamp,none,none⟩,now⟩
  | error text now => ⟨⟨none,none,some "no_price",some text⟩,now⟩

def life : Write → Life
  | price _ _ _ => .permanent
  | error _ _ => .timed

def isPrice : Write → Bool
  | price _ _ _ => true
  | error _ _ => false

/-- The entry, where the write was a price. -/
def asPrice (write : Write) : Option DiskEntry := if write.isPrice then some write.entry else none

/-- The entry, where the write was an error. -/
def asError (write : Write) : Option DiskEntry := if write.isPrice then none else some write.entry

end Write

/-- The last write to each token in lower case and block, unless it has expired. -/
abbrev Writes := String → Int → Option Write

namespace Writes

def update (map : Writes) (token : String) (block : Int) (write : Option Write) : Writes :=
  fun t b => if t = token ∧ b = block then write else map t b

def step (map : Writes) : Action → Writes
  | .setPrice token block price blockTimestamp now => map.update (lower token) block (some (.price price blockTimestamp now))
  | .setError token block error now => map.update (lower token) block (some (.error error now))
  | .expire token block => map.update token block ((map token block).filter Write.isPrice)
  | .cull _ _ => map

def run (actions : List Action) : Writes := actions.foldl (step lower) fun _ _ => none

end Writes

theorem dash_not_digit (n : Nat) : '-' ∉ n.repr.toList := by
  intro member
  rw [Nat.toList_repr] at member
  exact absurd (Numerals.numeral_toDigits n '-' member) (by decide)

theorem toString_negSucc (n : Nat) : (toString (Int.negSucc n)).toList = '-'::(n+1).repr.toList := by
  change ("-" ++ (n+1).repr).toList = _
  rw [String.toList_append]
  rfl

theorem colon_not_digit (block : Int) : ':' ∉ (toString block).toList := by
  intro member
  cases block with
  | ofNat n => exact colon_not_mem_toString n member
  | negSucc n =>
    rw [toString_negSucc] at member
    obtain dash | digit := List.mem_cons.mp member
    · exact absurd dash (by decide)
    · exact colon_not_mem_toString (n+1) digit

theorem toString_int_injective {first second : Int} (same : toString first = toString second) : first = second := by
  have characters := congrArg String.toList same
  cases first with
  | ofNat n =>
    cases second with
    | ofNat m => exact congrArg Int.ofNat (toString_injective characters)
    | negSucc m =>
      rw [toString_negSucc] at characters
      exact absurd (characters ▸ List.mem_cons_self) (dash_not_digit n)
  | negSucc n =>
    rw [toString_negSucc] at characters
    cases second with
    | ofNat m => exact absurd (characters ▸ List.mem_cons_self) (dash_not_digit m)
    | negSucc m =>
      rw [toString_negSucc] at characters
      have equal : n+1 = m+1 := toString_injective (List.cons.inj characters).2
      rw [Nat.succ.inj equal]

theorem key_toList (token : String) (block : Int) :
    (key token block).toList = token.toList++ ':'::(toString block).toList := by
  simp [key]

theorem key_injective {first second : String} {block other : Int} (same : key first block = key second other) :
    first = second ∧ block = other := by
  have characters := congrArg String.toList same
  rw [key_toList,key_toList] at characters
  obtain ⟨tokens,blocks⟩ := split_last (colon_not_digit block) (colon_not_digit other) characters
  exact ⟨String.toList_inj.mp tokens,toString_int_injective (String.toList_inj.mp blocks)⟩

theorem rsplit_key (token : String) (block : Int) : rsplit ':' (key token block) = some (token,toString block) := by
  have plain : ∀ c ∈ (toString block).toList.reverse, decide (c ≠ ':') = true := by
    intro c member
    refine decide_eq_true fun colon => colon_not_digit block ?_
    rw [← colon]
    exact List.mem_reverse.mp member
  have split : (key token block).toList.reverse.span (· ≠ ':') =
      ((toString block).toList.reverse,':'::token.toList.reverse) := by
    rw [key_toList,List.reverse_append,List.reverse_cons,List.append_assoc,List.singleton_append,
      List.span_eq_takeWhile_dropWhile,List.takeWhile_append_of_pos plain,List.dropWhile_append_of_pos plain]
    simp
  rw [rsplit,split]
  simp

/-- How the row of a key stands to the last write. -/
inductive Cell : Option (Row DiskEntry) → Option Write → Prop
  | absent : Cell none none
  | stored (write : Write) : Cell (some ⟨write.entry,write.life⟩) (some write)
  | lapsed (entry : DiskEntry) : Cell (some ⟨entry,.expired⟩) none

theorem Cell.lapse {row : Option (Row DiskEntry)} {write : Option Write} (cell : Cell row write) :
    Cell (row.map Row.lapse) (write.filter Write.isPrice) := by
  cases cell with
  | absent => exact .absent
  | lapsed entry => exact .lapsed entry
  | stored write =>
    cases write with
    | price value blockTimestamp now => exact .stored (.price value blockTimestamp now)
    | error text now => exact .lapsed _

theorem Cell.culled {row : Option (Row DiskEntry)} {write : Option Write} (cell : Cell row write) :
    Cell (row.bind Row.culled) write := by
  cases cell with
  | absent => exact .absent
  | lapsed entry => exact .absent
  | stored write => cases write <;> exact .stored _

/-- The disk cache stands for the map: at printable blocks, and it has no other keys. -/
structure Refines (cache : DiskCache) (map : Writes) : Prop where
  cells : ∀ token block, Printable block → Cell (cache.lookup (key token block)) (map token block)
  keys : ∀ stored row, cache.lookup stored = some row → ∃ token block, Printable block ∧ stored = key token block

variable {lower} {cache : DiskCache} {map : Writes}

theorem Cell.get {stored : String} {write : Option Write} (cell : Cell (cache.lookup stored) write) :
    cache.get stored = write.map Write.entry := by
  unfold ExpiringStore.get
  generalize cache.lookup stored = row at cell
  cases cell with
  | absent => rfl
  | lapsed entry => rfl
  | stored write => cases write <;> rfl

theorem makeKey_printable {token : String} {block : Int} (printable : Printable block) :
    makeKey lower token block = .ok (key (lower token) block) := by
  simp [makeKey,str,printable,key]

theorem makeKey_unprintable {token : String} {block : Int} (unprintable : ¬Printable block) :
    makeKey lower token block = .error .valueError := by
  simp [makeKey,str,unprintable]

theorem Refines.unprintable (refines : Refines cache map) (token : String) {block : Int} (write : Option Write)
    (unprintable : ¬Printable block) : Refines cache (map.update token block write) := by
  refine ⟨fun t b printable => ?_,refines.keys⟩
  have other : ¬(t = token ∧ b = block) := by
    rintro ⟨_,rfl⟩
    exact unprintable printable
  rw [Writes.update,if_neg other]
  exact refines.cells t b printable

/-- What happens to the row of one key happens to the write of its pair. -/
theorem Refines.change {after : DiskCache} (refines : Refines cache map) {token : String} {block : Int}
    {row : Option (Row DiskEntry)} {write : Option Write} (printable : Printable block) (cell : Cell row write)
    (changed : ∀ stored, after.lookup stored = if stored = key token block then row else cache.lookup stored) :
    Refines after (map.update token block write) := by
  refine ⟨fun t b shown => ?_,fun stored found present => ?_⟩
  · rw [changed,Writes.update]
    by_cases same : t = token ∧ b = block
    · rw [if_pos same,if_pos (by rw [same.1,same.2])]
      exact cell
    · rw [if_neg same,if_neg fun equal => same (key_injective equal)]
      exact refines.cells t b shown
  · rw [changed] at present
    split at present
    · rename_i same
      exact ⟨token,block,printable,same⟩
    · exact refines.keys stored found present

theorem Refines.set (refines : Refines cache map) (token : String) {block : Int} (printable : Printable block)
    (write : Write) : Refines (cache.set (key token block) write.entry write.life) (map.update token block (some write)) :=
  refines.change printable (.stored write) fun stored => ExpiringStore.lookup_set cache _ stored write.entry write.life

theorem Refines.not_stored (refines : Refines cache map) (token : String) {block : Int} (unprintable : ¬Printable block) :
    cache.lookup (key token block) = none := by
  rw [Option.eq_none_iff_forall_ne_some]
  intro row present
  obtain ⟨_,_,printable,same⟩ := refines.keys _ _ present
  rw [(key_injective same).2] at unprintable
  exact unprintable printable

theorem Refines.write (refines : Refines cache map) (token : String) (block : Int) (write : Write) :
    Refines (put lower cache token block write.entry write.life) (map.update (lower token) block (some write)) := by
  unfold put
  by_cases printable : Printable block
  · rw [makeKey_printable printable]
    exact refines.set (lower token) printable write
  · rw [makeKey_unprintable printable]
    exact refines.unprintable (lower token) (some write) printable

theorem Refines.step (refines : Refines cache map) (action : Action) :
    Refines (step lower cache action) (Writes.step lower map action) := by
  cases action with
  | setPrice token block price blockTimestamp now => exact refines.write token block (.price price blockTimestamp now)
  | setError token block error now => exact refines.write token block (.error error now)
  | expire token block =>
    change Refines (cache.expire (key token block)) (map.update token block _)
    by_cases printable : Printable block
    · refine refines.change printable (refines.cells token block printable).lapse fun stored => ?_
      rw [ExpiringStore.lookup_expire]
      split
      · rename_i same
        rw [same]
      · rfl
    · rw [ExpiringStore.expire,refines.not_stored token printable]
      exact refines.unprintable token _ printable
  | cull token block =>
    change Refines (cache.cull (key token block)) map
    by_cases printable : Printable block
    · have kept : map.update token block (map token block) = map := by
        funext t b
        unfold Writes.update
        split
        · rename_i same
          rw [same.1,same.2]
        · rfl
      rw [← kept]
      refine refines.change printable (refines.cells token block printable).culled fun stored => ?_
      rw [ExpiringStore.lookup_cull]
      split
      · rename_i same
        rw [same]
      · rfl
    · rw [ExpiringStore.cull,refines.not_stored token printable]
      exact refines

theorem refines_empty : Refines ∅ fun _ _ => none :=
  ⟨fun _ _ _ => by rw [AList.lookup_empty]; exact .absent,fun _ _ present => by rw [AList.lookup_empty] at present; cases present⟩

theorem Refines.run (refines : Refines cache map) (actions : List Action) :
    Refines (actions.foldl (DiskCache.step lower) cache) (actions.foldl (Writes.step lower) map) := by
  induction actions generalizing cache map with
  | nil => exact refines
  | cons action actions ih => exact ih (refines.step action)

theorem Refines.entryAt (refines : Refines cache map) (token : String) (block : Int) :
    entryAt lower cache token block = if Printable block then (map (lower token) block).map Write.entry else none := by
  unfold DiskCache.entryAt
  by_cases printable : Printable block
  · rw [makeKey_printable printable,if_pos printable]
    exact (refines.cells (lower token) block printable).get
  · rw [makeKey_unprintable printable,if_neg printable]

theorem Refines.getCachedPrice (refines : Refines cache map) (token : String) (block : Int) :
    getCachedPrice lower cache token block =
      if Printable block then (map (lower token) block).bind Write.asPrice else none := by
  rw [DiskCache.getCachedPrice,refines.entryAt]
  split
  · rcases map (lower token) block with _ | write
    · rfl
    · cases write <;> rfl
  · rfl

theorem Refines.getCachedError (refines : Refines cache map) (token : String) (block : Int) :
    getCachedError lower cache token block =
      if Printable block then (map (lower token) block).bind Write.asError else none := by
  rw [DiskCache.getCachedError,refines.entryAt]
  split
  · rcases map (lower token) block with _ | write
    · rfl
    · cases write <;> rfl
  · rfl

theorem Refines.errorAt_key (refines : Refines cache map) (token : String) {block : Int} (printable : Printable block) :
    errorAt cache (key token block) = ((map token block).bind Write.asError).map (token,block,·) := by
  have read : int (toString block) = .ok block := by
    rw [int,Numerals.intOf_toString printable]
  unfold DiskCache.errorAt
  rw [(refines.cells token block printable).get,rsplit_key]
  rcases map token block with _ | write
  · rfl
  · cases write with
    | price value blockTimestamp now => rfl
    | error text now =>
      simp only [Write.asError,Write.isPrice,Option.map_some,Option.bind_some,bind,read]
      rfl

theorem Refines.of_errorAt (refines : Refines cache map) {stored token : String} {block : Int} {entry : DiskEntry}
    (found : errorAt cache stored = some (token,block,entry)) :
    stored = key token block ∧ Printable block ∧ (map token block).bind Write.asError = some entry := by
  have present := found
  unfold DiskCache.errorAt at present
  obtain ⟨value,got,_⟩ := Option.bind_eq_some_iff.mp present
  obtain ⟨life,looked,_⟩ := (ExpiringStore.get_some cache stored).mp got
  obtain ⟨t,b,printable,rfl⟩ := refines.keys _ _ looked
  rw [refines.errorAt_key t printable] at found
  obtain ⟨error,written,same⟩ := Option.map_eq_some_iff.mp found
  cases same
  exact ⟨rfl,printable,written⟩

theorem Refines.mem_getCachedErrors (refines : Refines cache map) (token : String) (block : Int) (entry : DiskEntry) :
    (token,block,entry) ∈ getCachedErrors cache ↔ Printable block ∧ (map token block).bind Write.asError = some entry := by
  unfold DiskCache.getCachedErrors
  rw [List.mem_filterMap]
  constructor
  · rintro ⟨stored,_,found⟩
    exact (refines.of_errorAt found).2
  · rintro ⟨printable,written⟩
    have found : errorAt cache (key token block) = some (token,block,entry) := by
      rw [refines.errorAt_key token printable,written]
      rfl
    refine ⟨key token block,?_,found⟩
    obtain ⟨value,got,_⟩ := Option.bind_eq_some_iff.mp found
    obtain ⟨life,looked,_⟩ := (ExpiringStore.get_some cache _).mp got
    exact AList.lookup_isSome.mp (by rw [looked]; rfl)

theorem Refines.getCachedErrors_nodup (refines : Refines cache map) :
    ((getCachedErrors cache).map fun found => (found.1,found.2.1)).Nodup := by
  unfold DiskCache.getCachedErrors
  rw [List.map_filterMap]
  refine cache.keys_nodup.filterMap fun first second pair left right => ?_
  obtain ⟨⟨t,b,entry⟩,one,rfl⟩ := Option.map_eq_some_iff.mp left
  obtain ⟨⟨t',b',other⟩,two,same⟩ := Option.map_eq_some_iff.mp right
  obtain ⟨rfl,rfl⟩ := Prod.mk.inj same
  exact (refines.of_errorAt one).1.trans (refines.of_errorAt two).1.symm

/-- At the blocks that can be written as text, and only there, the cache is the map of last writes. -/
theorem run_refines (lower : String → String) (actions : List Action) :
    (∀ token block, getCachedPrice lower (run lower actions) token block =
      if Printable block then (Writes.run lower actions (lower token) block).bind Write.asPrice else none) ∧
    (∀ token block, getCachedError lower (run lower actions) token block =
      if Printable block then (Writes.run lower actions (lower token) block).bind Write.asError else none) ∧
    ((getCachedErrors (run lower actions)).map fun found => (found.1,found.2.1)).Nodup ∧
    ∀ token block entry, (token,block,entry) ∈ getCachedErrors (run lower actions) ↔
      Printable block ∧ (Writes.run lower actions token block).bind Write.asError = some entry := by
  have refines : Refines (run lower actions) (Writes.run lower actions) := refines_empty.run actions
  exact ⟨refines.getCachedPrice,refines.getCachedError,refines.getCachedErrors_nodup,refines.mem_getCachedErrors⟩

/-- The first block that is too long for `str`. -/
def enormous : Int := (10 ^ Numerals.maxStrDigits : Nat)

theorem enormous_unprintable : ¬Printable enormous := by
  intro printable
  rw [Printable,enormous,Int.natAbs_natCast,Nat.length_toDigits_le_iff (by decide) (by decide)] at printable
  exact lt_irrefl _ printable

def enormousWrite : List Action := [.setPrice sampleAddress enormous (.finite 1) none "2023-11-14T22:13:20+00:00"]

/-- The conversion of the block raises, which is logged, and nothing is written. -/
theorem enormous_price_lost :
    getCachedPrice String.toLower (run String.toLower enormousWrite) sampleAddress enormous = none ∧
    Writes.run String.toLower enormousWrite (String.toLower sampleAddress) enormous =
      some (.price (.finite 1) none "2023-11-14T22:13:20+00:00") := by
  constructor
  · have refines : Refines (run String.toLower enormousWrite) (Writes.run String.toLower enormousWrite) :=
      refines_empty.run enormousWrite
    rw [refines.getCachedPrice,if_neg enormous_unprintable]
  · exact if_pos ⟨rfl,rfl⟩

end DiskCache

end YPriceMagic.Server
