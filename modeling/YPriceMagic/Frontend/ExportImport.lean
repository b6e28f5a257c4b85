import YPriceMagic.Frontend.Adding
import YPriceMagic.Frontend.KnownTokens
import YPriceMagic.Frontend.PairSource

/-! The file of local tokens that the tokenlist dialog exports, and what importing it does. -/
namespace YPriceMagic.Frontend
open YPriceMagic.Async

def Token.toJson (token : Token) : Json :=
  .object ((token.chainId.map fun id => ("chainId",Json.number id)).toList ++ [("address",Json.string token.address)] ++
    (token.symbol.map fun symbol => ("symbol",Json.string symbol)).toList ++
    (token.name.map fun name => ("name",Json.string name)).toList ++ [("decimals",Json.number token.decimals)])

def Element.toJson : Element → Json
  | .token listed => listed.toJson
  | .malformed => .null

theorem ofJson_toJson (element : Element) : Element.ofJson element.toJson = element := by
  cases element with
  | malformed => rfl
  | token token =>
    obtain ⟨chainId,address,symbol,name,decimals⟩ := token
    cases chainId <;> cases symbol <;> cases name <;>
      simp [Element.toJson,Token.toJson,Element.ofJson,JsMap.get,Json.integer,Json.text]

/-- The local tokens in storage, when a page is loaded. -/
def Storage.savedTokens (storage : Storage) : List Element := (storage.localTokens.parse (some [])).getD []

namespace Store

def noLocalTokens : String := "No local tokens to export"

/-- The file, or the error that is shown instead. -/
def exportLocal (s : Store) : Except String Json :=
  match (s.entries s.allLists).find? fun list => list.isLocalTokens with
  | some list =>
    if list.tokens = [] then .error noLocalTokens else .ok (namedDocument list.name (list.tokens.map Element.toJson))
  | none => .error noLocalTokens

/-- What is exported of these local tokens. -/
def exported (tokens : List Element) : Except String Json :=
  if tokens = [] then .error noLocalTokens else .ok (namedDocument "Local Tokens" (tokens.map Element.toJson))

def Action.saves : Action → Option Element
  | .addLocalToken token => some (.token token)
  | _ => none

/-- The list of local tokens stays, and no other list passes for it. -/
def KeepsOwn (s : Store) : Action → Prop
  | .removeList index => 0 ≤ index → s.lists[index.toNat]? ≠ s.localEntry
  | .addList list => list.isLocalTokens = false
  | _ => True

instance (s : Store) : (action : Action) → Decidable (s.KeepsOwn action)
  | .removeList index => inferInstanceAs (Decidable (0 ≤ index → s.lists[index.toNat]? ≠ s.localEntry))
  | .addList list => inferInstanceAs (Decidable (list.isLocalTokens = false))
  | .addLocalToken _ | .toggleList _ | .fetched _ _ => .isTrue trivial

/-- A list in memory or one that the dialog shows. -/
def Held (s : Store) (ref : Nat) : Prop := ref ∈ s.lists ∨ ref ∈ s.allLists

def tokensAt (s : Store) (ref : Nat) : Option (List Element) := s.heap[ref]?.map (·.tokens)

/-- The one list of local tokens has them all, and so has the storage. -/
structure Owns (s : Store) (ref : Nat) (tokens : List Element) : Prop where
  present : ref ∈ s.lists ∧ ref ∈ s.allLists
  inside : ∀ other, s.Held other → other < s.heap.length
  alone : ∀ other, s.Held other → ((s.metaAt other).any ListMeta.isLocalTokens = true ↔ other = ref)
  localTokens : s.localTokens = some tokens
  shown : s.tokensAt ref = some tokens
  stored : s.storage.savedTokens = tokens

/-- The index and the pairs may differ, and the dialog shows what it did or what is in memory. -/
structure Rebuilt (s next : Store) : Prop where
  adjusted : Adjusted s next
  published : next.allLists = s.allLists ∨ next.allLists = s.lists

variable {bundle : Bundle} {texts : Texts} {toUpperCase : String → String} {s next : Store} {ref : Nat} {tokens : List Element}

theorem Rebuilt.trans {third : Store} (first : Rebuilt s next) (second : Rebuilt next third) : Rebuilt s third := by
  refine ⟨first.adjusted.trans second.adjusted,?_⟩
  obtain ⟨_,_,_,same⟩ := first.adjusted
  have lists : next.lists = s.lists := by rw [same]
  rcases second.published with kept | shown
  · rw [kept]
    exact first.published
  · exact Or.inr (shown.trans lists)

theorem Rebuilt.andThen {ran : Ran} {rest : Store → Ran} (first : Rebuilt s ran.1) (second : ∀ s, Rebuilt s (rest s).1) :
    Rebuilt s (ran.andThen rest).1 := by
  unfold Ran.andThen
  split
  · exact first.trans (second ran.1)
  · exact first

theorem rebuildAndSync_rebuilt (bundle : Bundle) (s : Store) : Rebuilt s (s.rebuildAndSync bundle).1 := by
  refine ⟨rebuildAndSync_adjusted bundle s,?_⟩
  rcases s.rebuildAndSync_cases bundle with ⟨_,_,same⟩ | ⟨_,same⟩
  · exact Or.inr (by rw [same])
  · exact Or.inl (by rw [same])

theorem revertPair_rebuilt (bundle : Bundle) (s : Store) (chain : Chain) : Rebuilt s (s.revertPair bundle chain).1 := by
  refine ⟨revertPair_adjusted bundle s chain,Or.inl ?_⟩
  unfold revertPair
  split
  · unfold resetCustomPair
    split <;> rfl
  · rfl
  · rfl

theorem removeList_rebuilt (bundle : Bundle) {index ref : Nat} (found : s.lists[index]? = some ref) {list : ListMeta}
    (there : s.metaAt ref = some list) : Rebuilt (s.dropList index ref) (s.removeList bundle index).1 := by
  rw [removeList_eq bundle found there]
  refine Rebuilt.andThen ?_ (rebuildAndSync_rebuilt bundle)
  split
  · exact ⟨Adjusted.refl _,Or.inl rfl⟩
  · exact (revertPair_rebuilt bundle _ .ethereum).andThen fun s => revertPair_rebuilt bundle s .base

theorem Owns.rebuilt (owns : s.Owns ref tokens) (rebuilt : Rebuilt s next) : next.Owns ref tokens := by
  obtain ⟨⟨defaultPairs,tokenIndex,allLists,rfl⟩,published⟩ := rebuilt
  have held (other : Nat) (holds : Held {s with tokenIndex,allLists,storage := {s.storage with defaultPairs}} other) : s.Held other := by
    rcases holds with listed | shown
    · exact Or.inl listed
    · rcases published with same | same
      · exact Or.inr (same ▸ shown)
      · exact Or.inl (same ▸ shown)
  refine ⟨⟨owns.present.1,?_⟩,fun other holds => owns.inside other (held other holds),
    fun other holds => owns.alone other (held other holds),owns.localTokens,owns.shown,owns.stored⟩
  rcases published with same | same
  · exact same ▸ owns.present.2
  · exact same ▸ owns.present.1

theorem Owns.localEntry (owns : s.Owns ref tokens) : s.localEntry = some ref := by
  cases found : s.localEntry with
  | none =>
    have passes := List.find?_eq_none.mp found ref owns.present.1
    exact absurd ((owns.alone ref (Or.inl owns.present.1)).mpr rfl) passes
  | some other =>
    have listed := List.mem_of_find?_eq_some found
    have passes : (s.metaAt other).any ListMeta.isLocalTokens = true := by simpa using List.find?_some found
    rw [(owns.alone other (Or.inl listed)).mp passes]

theorem switchList_tokensAt (s : Store) (key : String) (ref : Nat) : (s.switchList key).tokensAt ref = s.tokensAt ref := by
  have same : (s.switchList key).heap.map (·.tokens) = s.heap.map (·.tokens) := by
    unfold Store.switchList
    dsimp only
    split
    · exact modify_map _ _ fun list => rfl
    · rfl
  have here := congrArg (·[ref]?) same
  simpa only [tokensAt,List.getElem?_map] using here

theorem Owns.switchList (owns : s.Owns ref tokens) (key : String) : (s.switchList key).Owns ref tokens := by
  have metas (other : Nat) : ((s.switchList key).metaAt other).any ListMeta.isLocalTokens = (s.metaAt other).any ListMeta.isLocalTokens := by
    rw [switchList_metaAt]
    cases s.metaAt other with
    | none => rfl
    | some found =>
      rw [Option.map_some,Option.any_some,Option.any_some,switched_eq]
      rfl
  refine ⟨owns.present,?_,fun other held => by rw [metas]; exact owns.alone other held,owns.localTokens,?_,owns.stored⟩
  · intro other held
    rw [switchList_length]
    exact owns.inside other held
  · rw [switchList_tokensAt]
    exact owns.shown

theorem Owns.insertList (owns : s.Owns ref tokens) {list : TokenlistEntry} (other : list.isLocalTokens = false) :
    (s.insertList list).Owns ref tokens := by
  have grown : (s.insertList list).heap.length = s.heap.length+1 := List.length_append ..
  have held (place : Nat) (holds : (s.insertList list).Held place) : place = s.heap.length ∨ s.Held place := by
    rcases holds with listed | shown
    · exact ((List.mem_insertIdx (Nat.sub_le _ _)).mp listed).imp_right Or.inl
    · exact Or.inr (Or.inr shown)
  have here := owns.inside ref (Or.inl owns.present.1)
  refine ⟨⟨(List.mem_insertIdx (Nat.sub_le _ _)).mpr (Or.inr owns.present.1),owns.present.2⟩,?_,?_,owns.localTokens,?_,owns.stored⟩
  · intro place holds
    rw [grown]
    rcases held place holds with rfl | old
    · exact Nat.lt_succ_self _
    · exact Nat.lt_succ_of_lt (owns.inside place old)
  · intro place holds
    rcases held place holds with rfl | old
    · rw [insertList_metaAt_new,Option.any_some,other]
      exact ⟨fun passes => (by cases passes),fun same => absurd same (Nat.ne_of_gt here)⟩
    · rw [insertList_metaAt_old list (owns.inside place old)]
      exact owns.alone place old
  · rw [← owns.shown]
    exact congrArg (Option.map TokenlistEntry.tokens) (List.getElem?_append_left here)

theorem Owns.dropList (owns : s.Owns ref tokens) {index other : Nat} (found : s.lists[index]? = some other) (stays : other ≠ ref) :
    (s.dropList index other).Owns ref tokens := by
  have held (place : Nat) (holds : (s.dropList index other).Held place) : s.Held place :=
    holds.imp_left List.mem_of_mem_eraseIdx
  refine ⟨⟨?_,owns.present.2⟩,fun place holds => owns.inside place (held place holds),
    fun place holds => owns.alone place (held place holds),owns.localTokens,owns.shown,owns.stored⟩
  change ref ∈ s.lists.eraseIdx index
  obtain ⟨i,here⟩ := List.mem_iff_getElem?.mp owns.present.1
  have differs : i ≠ index := by
    rintro rfl
    exact stays (Option.some.inj (found.symm.trans here))
  exact List.mem_eraseIdx_iff_getElem?.mpr ⟨i,differs,here⟩

theorem Owns.setLocalTokens (owns : s.Owns ref tokens) (new : List Element) : (s.setLocalTokens new).Owns ref new := by
  refine ⟨owns.present,?_,?_,rfl,?_,rfl⟩
  · intro other held
    rw [setLocalTokens_length]
    exact owns.inside other held
  · intro other held
    rw [setLocalTokens_metaAt]
    exact owns.alone other held
  · obtain ⟨list,there,_⟩ := Option.map_eq_some_iff.mp owns.shown
    rw [tokensAt,setLocalTokens_shown,showTokens_getElem?,showTokens_getElem?,there,owns.localEntry]
    simp

/-- What an action saves is added to what is there. -/
theorem step_owns {action : Action} (owns : s.Owns ref tokens) (keeps : s.KeepsOwn action)
    (stepped : s.step bundle action = some next) : next.Owns ref (tokens ++ action.saves.toList) := by
  cases action with
  | fetched i answer =>
    obtain ⟨_,_,_,_,rfl⟩ := fetched_cases stepped
    simp only [Action.saves,Option.toList_none,List.append_nil]
    exact ⟨owns.present,owns.inside,owns.alone,owns.localTokens,owns.shown,owns.stored⟩
  | toggleList key =>
    cases Option.some.inj stepped
    simp only [Action.saves,Option.toList_none,List.append_nil]
    exact (owns.switchList key).rebuilt (rebuildAndSync_rebuilt bundle _)
  | addList list =>
    cases Option.some.inj stepped
    simp only [Action.saves,Option.toList_none,List.append_nil]
    exact (owns.insertList keeps).rebuilt (rebuildAndSync_rebuilt bundle _)
  | removeList index =>
    cases Option.some.inj stepped
    simp only [Action.saves,Option.toList_none,List.append_nil]
    rcases s.removeList_cases bundle index with ⟨_,same⟩ | ⟨positive,other,found,_⟩
    · rw [same]
      exact owns
    · have stays : other ≠ ref := by
        rintro rfl
        exact keeps positive (found.trans owns.localEntry.symm)
      have inside := owns.inside other (Or.inl (List.mem_of_getElem? found))
      have there : s.metaAt other = some (s.heap[other]).toListMeta := by rw [metaAt,List.getElem?_eq_getElem inside,Option.map_some]
      have rebuilt := removeList_rebuilt bundle found there
      rw [Int.toNat_of_nonneg positive] at rebuilt
      exact (owns.dropList found stays).rebuilt rebuilt
  | addLocalToken token =>
    cases Option.some.inj stepped
    rw [Store.addLocalToken,owns.localTokens]
    exact (owns.setLocalTokens _).rebuilt (rebuildAndSync_rebuilt bundle _)

theorem Owns.shelf (owns : s.Owns ref tokens) : ∃ list ∈ s.entries s.allLists, list.isLocalTokens = true ∧ list.tokens = tokens := by
  obtain ⟨list,there,shown⟩ := Option.map_eq_some_iff.mp owns.shown
  have passes := (owns.alone ref (Or.inl owns.present.1)).mpr rfl
  rw [metaAt,there,Option.map_some,Option.any_some] at passes
  exact ⟨list,List.mem_filterMap.mpr ⟨ref,owns.present.2,there⟩,passes,shown⟩

theorem Owns.exportLocal (owns : s.Owns ref tokens) : s.exportLocal = exported tokens := by
  unfold Store.exportLocal
  cases found : (s.entries s.allLists).find? fun list => list.isLocalTokens with
  | none =>
    obtain ⟨list,member,passes,_⟩ := owns.shelf
    exact absurd passes (List.find?_eq_none.mp found list member)
  | some list =>
    obtain ⟨other,shown,there⟩ := List.mem_filterMap.mp (List.mem_of_find?_eq_some found)
    have passes : list.isLocalTokens = true := List.find?_some (p := fun list : TokenlistEntry => list.isLocalTokens) found
    obtain rfl := (owns.alone other (Or.inr shown)).mp (by rw [metaAt,there]; exact passes)
    have content := owns.shown
    rw [tokensAt,there,Option.map_some] at content
    have name : list.name = "Local Tokens" := by
      rw [ListMeta.isLocalTokens,Bool.and_eq_true] at passes
      exact of_decide_eq_true passes.2
    dsimp only
    rw [exported,Option.some.inj content,name]

theorem initTokenlists_published {remote : String → Fetched} {storage : Storage}
    (started : initTokenlists bundle remote storage = some (s,.ok ())) : s.allLists = s.lists ∧ s.storage = storage := by
  obtain ⟨states,lists,_,_,ended⟩ := initTokenlists_cases started
  rcases (reopened bundle remote states storage lists).rebuildAndSync_cases bundle with ⟨tokenIndex,_,same⟩ | ⟨⟨error,fails⟩,_⟩
  · rw [same] at ended
    cases ended
    exact ⟨rfl,rfl⟩
  · rw [rebuildAndSync_fails fails] at ended
    cases ended

theorem initTokenlists_owns {remote : String → Fetched} {storage : Storage}
    (started : initTokenlists bundle remote storage = some (s,.ok ()))
    (own : ∀ list ∈ s.entries s.userLists, list.isLocalTokens = false) : ∃ ref, s.Owns ref storage.savedTokens := by
  obtain ⟨published,unwritten⟩ := initTokenlists_published started
  obtain ⟨states,users,tokens,placed,_⟩ := initTokenlists_synced started
  obtain ⟨first,second,last,order,default,builtin,tokensList,_⟩ := placed.ends
  obtain ⟨_,⟨_,_,parsed⟩,_⟩ := placed.holds
  have saved : storage.savedTokens = tokens := by rw [Storage.savedTokens,← unwritten,parsed,Option.getD_some]
  have member : last ∈ s.lists := by simp [order]
  have held (other : Nat) (holds : s.Held other) : other ∈ s.lists := holds.elim id fun shown => published ▸ shown
  refine ⟨last,⟨member,published ▸ member⟩,fun other holds => placed.bounded other (held other holds),?_,
    saved ▸ placed.localTokens,by rw [tokensAt,tokensList,saved]; rfl,by rw [unwritten]⟩
  have metaOf {place : Nat} {entry : TokenlistEntry} (found : s.heap[place]? = some entry) : s.metaAt place = some entry.toListMeta := by
    rw [metaAt,found]
    rfl
  have distinct := placed.distinct
  rw [order,List.nodup_cons,List.nodup_cons,List.nodup_append] at distinct
  obtain ⟨firstOnce,secondOnce,_,_,apart⟩ := distinct
  intro other holds
  have listed := held other holds
  rw [order,List.mem_cons,List.mem_cons,List.mem_append,List.mem_singleton] at listed
  rcases listed with rfl | rfl | user | rfl
  · rw [metaOf default]
    exact iff_of_false (by simp [ListMeta.isLocalTokens,defaultList]) fun same => firstOnce (by simp [same])
  · rw [metaOf builtin]
    exact iff_of_false (by decide) fun same => secondOnce (by simp [same])
  · refine iff_of_false ?_ (apart other user last (List.mem_singleton_self last))
    cases there : s.heap[other]? with
    | none => simp [metaAt,there]
    | some entry =>
      rw [metaOf there,Option.any_some,own entry (List.mem_filterMap.mpr ⟨other,user,there⟩)]
      decide
  · rw [metaOf tokensList]
    exact iff_of_true rfl rfl

theorem run_owns {actions : List Action} (owns : s.Owns ref tokens) (keeps : Throughout (step bundle) KeepsOwn s actions)
    (ran : run (step bundle) s actions = some next) : next.Owns ref (tokens ++ actions.filterMap Action.saves) := by
  induction actions generalizing s tokens with
  | nil =>
    cases Option.some.inj ran
    rw [List.filterMap_nil,List.append_nil]
    exact owns
  | cons action rest ih =>
    obtain ⟨middle,stepped,ran⟩ := run_cons_some ran
    have later := ih (step_owns owns keeps.1 stepped) (keeps.2 middle stepped) ran
    rw [List.append_assoc] at later
    cases saved : action.saves <;> simpa [saved] using later

/-- A page that was loaded from this storage, after actions that keep the list of local tokens. -/
def KeptPage (bundle : Bundle) (remote : String → Fetched) (storage : Storage) (actions : List Action) (s : Store) : Prop :=
  ∃ initial, initTokenlists bundle remote storage = some (initial,.ok ()) ∧
    (∀ list ∈ initial.entries initial.userLists, list.isLocalTokens = false) ∧
    Throughout (step bundle) KeepsOwn initial actions ∧ run (step bundle) initial actions = some s

variable {remote : String → Fetched} {storage : Storage} {actions : List Action}

theorem KeptPage.owns (kept : KeptPage bundle remote storage actions s) :
    ∃ ref, s.Owns ref (storage.savedTokens ++ actions.filterMap Action.saves) := by
  obtain ⟨initial,started,own,keeps,ran⟩ := kept
  obtain ⟨ref,owns⟩ := initTokenlists_owns started own
  exact ⟨ref,run_owns owns keeps ran⟩

theorem KeptPage.wellFormed (kept : KeptPage bundle remote storage actions s) :
    .malformed ∉ storage.savedTokens ++ actions.filterMap Action.saves := by
  obtain ⟨initial,started,_,_,_⟩ := kept
  obtain ⟨_,_,tokens,placed,_⟩ := initTokenlists_synced started
  obtain ⟨_,⟨_,_,parsed⟩,_⟩ := placed.holds
  rw [(initTokenlists_published started).2] at parsed
  rw [List.mem_append,Storage.savedTokens,parsed,Option.getD_some]
  rintro (stored | saved)
  · exact placed.wellFormed stored
  · obtain ⟨action,_,saves⟩ := List.mem_filterMap.mp saved
    cases action <;> simp [Action.saves] at saves

theorem KeptPage.exportLocal (kept : KeptPage bundle remote storage actions s) :
    s.exportLocal = exported (storage.savedTokens ++ actions.filterMap Action.saves) := by
  obtain ⟨ref,owns⟩ := kept.owns
  exact owns.exportLocal

/-- The file has every token that was in storage or has been saved since, in order, and so has the storage. -/
theorem export_holds_saved (kept : KeptPage bundle remote storage actions s) :
    s.exportLocal = exported (storage.savedTokens ++ actions.filterMap Action.saves) ∧
      s.storage.savedTokens = storage.savedTokens ++ actions.filterMap Action.saves := by
  obtain ⟨ref,owns⟩ := kept.owns
  exact ⟨kept.exportLocal,owns.stored⟩

def savingRun : List Action := [.addList remoteList,.addLocalToken sampleToken,.toggleList "default",.removeList 2]

theorem savingRun_kept : ∃ s, KeptPage smallBundle oneToken emptyStorage savingRun s := by
  have completes : ∃ ran ∈ initTokenlists smallBundle oneToken emptyStorage, ran.2 = .ok () ∧
      (∀ list ∈ ran.1.entries ran.1.userLists, list.isLocalTokens = false) ∧
      Throughout (step smallBundle) KeepsOwn ran.1 savingRun ∧ (run (step smallBundle) ran.1 savingRun).isSome = true := by
    decide +kernel
  obtain ⟨⟨initial,_⟩,started,rfl,own,keeps,goes⟩ := completes
  obtain ⟨s,ran⟩ := Option.isSome_iff_exists.mp goes
  exact ⟨s,initial,started,own,keeps,ran⟩

theorem export_holds_saved_run : ∃ s : Store, s.exportLocal = exported [.token sampleToken] ∧ s.storage.savedTokens = [.token sampleToken] := by
  obtain ⟨s,kept⟩ := savingRun_kept
  exact ⟨s,export_holds_saved kept⟩

/-- The reads of `texts` where the name is a text. -/
structure NamesRead (texts : Texts) (name : String) : Prop where
  ofName : texts.ofName (some (.string name)) = name
  isName : ∀ other, texts.isName other (some (.string name)) = decide (other = name)

def localTaken : Message := .error "A list named \"Local Tokens\" already exists"

theorem exported_ok {document : Json} (written : exported tokens = .ok document) :
    document = namedDocument "Local Tokens" (tokens.map Element.toJson) := by
  unfold exported at written
  split at written
  · cases written
  · exact (Except.ok.inj written).symm

theorem importFile_exported (reads : NamesRead texts "Local Tokens") (s : Store) {document : Json} (written : exported tokens = .ok document) :
    s.importFile bundle texts (some document) = s.handleFileImport bundle (some ⟨"Local Tokens",some tokens⟩) := by
  have read : (tokens.map Element.toJson).map Element.ofJson = tokens := by
    rw [List.map_map]
    exact List.map_id'' ofJson_toJson tokens
  rw [exported_ok written,namedDocument,importFile_text reads.ofName reads.isName,read]

theorem handleFileImport_taken (taken : ∃ list ∈ s.entries s.allLists, list.name = "Local Tokens") :
    s.handleFileImport bundle (some ⟨"Local Tokens",some tokens⟩) = (s,localTaken) := by
  obtain ⟨list,member,name⟩ := taken
  have found : ((s.entries s.allLists).any fun list => decide (list.name = "Local Tokens")) = true :=
    List.any_eq_true.mpr ⟨list,member,decide_eq_true name⟩
  simp only [handleFileImport,found]
  rfl

theorem handleFileImport_new (listed : s.Listed) (readable : ∀ list ∈ s.entries s.lists, list.Readable) (wellFormed : .malformed ∉ tokens)
    (free : ∀ list ∈ s.entries s.allLists, list.name ≠ "Local Tokens") :
    (s.handleFileImport bundle (some ⟨"Local Tokens",some tokens⟩)).2 =
        .success s!"Imported \"Local Tokens\" with {tokens.length} tokens" ∧
      ∀ token, .token token ∈ tokens →
        (s.handleFileImport bundle (some ⟨"Local Tokens",some tokens⟩)).1.Known bundle toUpperCase token := by
  have absent : ((s.entries s.allLists).any fun list => decide (list.name = "Local Tokens")) = false :=
    List.any_eq_false.mpr fun list member => by simpa using free list member
  have all := (insertList_readable listed (fileList "Local Tokens" tokens)).mpr ⟨fun _ => wellFormed,readable⟩
  obtain ⟨tokenIndex,built,added⟩ := @rebuildAndSync_returns bundle _ all
  have member : fileList "Local Tokens" tokens ∈ (s.insertList (fileList "Local Tokens" tokens)).entries
      (s.insertList (fileList "Local Tokens" tokens)).lists := (insertList_entries listed _ _).mpr (Or.inl rfl)
  have named : "Local Tokens" ≠ "" := by decide
  simp only [handleFileImport,absent,named,if_false,Bool.false_eq_true,Store.addList,added]
  exact ⟨rfl,fun token listed => known_of_enabled built (enabledTokens_mem member rfl listed)⟩

theorem exportLocal_ok {document : Json} (written : s.exportLocal = .ok document) : ∃ tokens, exported tokens = .ok document := by
  unfold Store.exportLocal at written
  split at written
  · rename_i list found
    have passes : list.isLocalTokens = true := List.find?_some (p := fun list : TokenlistEntry => list.isLocalTokens) found
    rw [ListMeta.isLocalTokens,Bool.and_eq_true] at passes
    rw [of_decide_eq_true passes.2] at written
    exact ⟨list.tokens,written⟩
  · cases written

/-- A page without a list of that name takes the file, and then it knows every token that the other page had
in storage or has saved. -/
theorem exported_import (toUpperCase : String → String) {page : Store} {document : Json} (reads : NamesRead texts "Local Tokens")
    (kept : KeptPage bundle remote storage actions s) (written : s.exportLocal = .ok document) (reached : Reachable bundle page)
    (readable : ∀ list ∈ page.entries page.lists, list.Readable)
    (free : ∀ list ∈ page.entries page.allLists, list.name ≠ "Local Tokens") :
    ∃ tokens, tokens = storage.savedTokens ++ actions.filterMap Action.saves ∧
      (page.importFile bundle texts (some document)).2 = .success s!"Imported \"Local Tokens\" with {tokens.length} tokens" ∧
      ∀ token, .token token ∈ tokens → (page.importFile bundle texts (some document)).1.Known bundle toUpperCase token := by
  rw [kept.exportLocal] at written
  rw [importFile_exported reads page written]
  exact ⟨_,rfl,handleFileImport_new reached.listed readable kept.wellFormed free⟩

theorem plainTexts_read (name : String) : NamesRead plainTexts name := ⟨rfl,fun _ => rfl⟩

/-- The list of local tokens of the other page has been deleted. -/
theorem exported_import_deleted : ∃ page document, Reachable smallBundle page ∧
    (page.importFile smallBundle plainTexts (some document)).2 = .success "Imported \"Local Tokens\" with 1 tokens" ∧
      (page.importFile smallBundle plainTexts (some document)).1.Known smallBundle asciiUpper sampleToken := by
  obtain ⟨s,kept⟩ := savingRun_kept
  have written : s.exportLocal = .ok (namedDocument "Local Tokens" [sampleToken.toJson]) := kept.exportLocal
  obtain ⟨⟨first,_⟩,opened,readable,free⟩ : ∃ ran ∈ firstPage smallBundle,
      (∀ list ∈ (ran.1.removeList smallBundle 2).1.entries (ran.1.removeList smallBundle 2).1.lists, list.Readable) ∧
      ∀ list ∈ (ran.1.removeList smallBundle 2).1.entries (ran.1.removeList smallBundle 2).1.allLists,
        list.name ≠ "Local Tokens" := by decide +kernel
  have reached : Reachable smallBundle (first.removeList smallBundle 2).1 :=
    .step (firstPage_reachable opened) (show first.step smallBundle (.removeList 2) = some _ from rfl)
  obtain ⟨tokens,rfl,message,known⟩ := exported_import asciiUpper (plainTexts_read _) kept written reached readable free
  exact ⟨_,_,reached,message,known sampleToken (List.mem_singleton_self _)⟩

/-- A page that still has its list of local tokens takes no such file, its own or another page's. -/
theorem kept_page_refuses {page : Store} {document : Json} (reads : NamesRead texts "Local Tokens")
    (kept : KeptPage bundle remote storage actions page) (written : s.exportLocal = .ok document) :
    page.importFile bundle texts (some document) = (page,localTaken) := by
  obtain ⟨tokens,wrote⟩ := exportLocal_ok written
  obtain ⟨ref,owns⟩ := kept.owns
  obtain ⟨list,member,passes,_⟩ := owns.shelf
  rw [ListMeta.isLocalTokens,Bool.and_eq_true] at passes
  rw [importFile_exported reads page wrote]
  exact handleFileImport_taken ⟨list,member,of_decide_eq_true passes.2⟩

/-- The page's own file. -/
theorem kept_page_refuses_own : ∃ (page : Store) (document : Json), page.exportLocal = .ok document ∧
    page.importFile smallBundle plainTexts (some document) = (page,localTaken) := by
  obtain ⟨page,kept⟩ := savingRun_kept
  have written : page.exportLocal = .ok (namedDocument "Local Tokens" [sampleToken.toJson]) := kept.exportLocal
  exact ⟨page,_,written,kept_page_refuses (plainTexts_read _) kept written⟩

end Store

end YPriceMagic.Frontend
