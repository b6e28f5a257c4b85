import Mathlib.Data.List.InsertIdx
import Mathlib.Data.List.Nodup
import Mathlib.Data.List.Perm.Basic
import YPriceMagic.Frontend.Tokenlist

/-! What each function of the tokenlist store does to it, whether or not it throws. -/
namespace YPriceMagic.Frontend

namespace Store

variable {bundle : Bundle} {s : Store}

def keyAt (s : Store) (ref : Nat) : String := (s.heap[ref]?.map fun list => getListKey list.toListMeta).getD ""

theorem rebuildAndSync_built {index : TokenIndex} (built : buildTokenIndex bundle (s.entries s.lists) = .ok index) :
    s.rebuildAndSync bundle = ({s with tokenIndex := index,allLists := s.lists},.ok ()) := by rw [rebuildAndSync,built]

theorem rebuildAndSync_fails {error : JsError} (fails : buildTokenIndex bundle (s.entries s.lists) = .error error) :
    s.rebuildAndSync bundle = (s,.error error) := by rw [rebuildAndSync,fails]

theorem rebuildAndSync_cases (bundle : Bundle) (s : Store) :
    (∃ tokenIndex, buildTokenIndex bundle (s.entries s.lists) = .ok tokenIndex ∧
      s.rebuildAndSync bundle = ({s with tokenIndex,allLists := s.lists},.ok ())) ∨
    ((∃ error, buildTokenIndex bundle (s.entries s.lists) = .error error) ∧ (s.rebuildAndSync bundle).1 = s) := by
  cases built : buildTokenIndex bundle (s.entries s.lists) with
  | ok tokenIndex => exact Or.inl ⟨tokenIndex,rfl,rebuildAndSync_built built⟩
  | error error => exact Or.inr ⟨⟨error,rfl⟩,congrArg Prod.fst (rebuildAndSync_fails built)⟩

/-- Only what is published, and the stored pairs, may differ. -/
def Adjusted (s next : Store) : Prop :=
  ∃ defaultPairs tokenIndex allLists, next = {s with tokenIndex,allLists,storage := {s.storage with defaultPairs}}

theorem Adjusted.refl (s : Store) : Adjusted s s := ⟨s.storage.defaultPairs,s.tokenIndex,s.allLists,rfl⟩

theorem Adjusted.trans {first second third : Store} (before : Adjusted first second) (after : Adjusted second third) :
    Adjusted first third := by
  obtain ⟨_,_,_,rfl⟩ := before
  obtain ⟨defaultPairs,tokenIndex,allLists,rfl⟩ := after
  exact ⟨defaultPairs,tokenIndex,allLists,rfl⟩

theorem Adjusted.entries_eq {next : Store} (adjusted : Adjusted s next) : next.entries next.lists = s.entries s.lists := by
  obtain ⟨_,_,_,rfl⟩ := adjusted
  rfl

theorem Adjusted.andThen {ran : Ran} {next : Store → Ran} (first : Adjusted s ran.1)
    (second : ∀ s, Adjusted s (next s).1) : Adjusted s (ran.andThen next).1 := by
  unfold Ran.andThen
  split
  · exact first.trans (second ran.1)
  · exact first

theorem rebuildAndSync_adjusted (bundle : Bundle) (s : Store) : Adjusted s (s.rebuildAndSync bundle).1 := by
  rcases s.rebuildAndSync_cases bundle with ⟨tokenIndex,_,same⟩ | ⟨_,same⟩
  · exact ⟨s.storage.defaultPairs,tokenIndex,s.lists,by rw [same]⟩
  · rw [same]
    exact Adjusted.refl s

theorem revertPair_adjusted (bundle : Bundle) (s : Store) (chain : Chain) : Adjusted s (s.revertPair bundle chain).1 := by
  unfold revertPair
  split
  · unfold resetCustomPair
    split
    · exact Adjusted.refl s
    · exact ⟨_,s.tokenIndex,s.allLists,rfl⟩
    · exact ⟨_,s.tokenIndex,s.allLists,rfl⟩
  · exact Adjusted.refl s
  · exact Adjusted.refl s

theorem addList_adjusted (bundle : Bundle) (s : Store) (list : TokenlistEntry) :
    Adjusted (s.insertList list) (s.addList bundle list).1 :=
  rebuildAndSync_adjusted bundle _

theorem toggleList_adjusted (bundle : Bundle) (s : Store) (key : String) :
    Adjusted (s.switchList key) (s.toggleList bundle key).1 :=
  rebuildAndSync_adjusted bundle _

theorem removeList_cases (bundle : Bundle) (s : Store) (index : Int) :
    ((index < 0 ∨ s.lists[index.toNat]? = none) ∧ s.removeList bundle index = (s,.ok ())) ∨
    (0 ≤ index ∧ ∃ ref, s.lists[index.toNat]? = some ref ∧
      Adjusted (s.dropList index.toNat ref) (s.removeList bundle index).1) := by
  unfold removeList
  split
  · rename_i negative
    exact Or.inl ⟨Or.inl negative,rfl⟩
  · rename_i positive
    split
    · rename_i outside
      exact Or.inl ⟨Or.inr outside,rfl⟩
    · rename_i ref found
      refine Or.inr ⟨Int.not_lt.mp positive,ref,found,?_⟩
      refine Adjusted.andThen ?_ (rebuildAndSync_adjusted bundle)
      split
      · exact Adjusted.refl _
      · exact (revertPair_adjusted bundle _ .ethereum).andThen fun s => revertPair_adjusted bundle s .base

theorem addLocalToken_cases (bundle : Bundle) (s : Store) (token : Token) :
    (s.localTokens = none ∧ s.addLocalToken bundle token = (s,.error .typeError)) ∨
    ∃ tokens, s.localTokens = some tokens ∧
      Adjusted (s.setLocalTokens (tokens++[.token token])) (s.addLocalToken bundle token).1 := by
  unfold addLocalToken
  split
  · rename_i absent
    exact Or.inl ⟨absent,rfl⟩
  · rename_i tokens found
    exact Or.inr ⟨tokens,found,rebuildAndSync_adjusted bundle _⟩

theorem modify_map {α β : Type} {f : α → β} {change : α → α} (items : List α) (i : Nat)
    (same : ∀ item, f (change item) = f item) : (items.modify i change).map f = items.map f := by
  apply List.ext_getElem?
  intro k
  simp only [List.getElem?_map,List.getElem?_modify]
  split
  · cases items[k]? <;> simp [same]
  · simp

theorem showTokens_getElem? (tokens : List Element) (heap : List TokenlistEntry) (place : Option Nat) (ref : Nat) :
    (showTokens tokens heap place)[ref]? =
      heap[ref]?.map fun list => if place = some ref then {list with tokens} else list := by
  cases place with
  | none => simp [showTokens]
  | some other =>
    by_cases same : other = ref
    · simp [showTokens,same]
    · simp [showTokens,same]

theorem showTokens_metas (tokens : List Element) (heap : List TokenlistEntry) (ref : Option Nat) :
    (showTokens tokens heap ref).map (·.toListMeta) = heap.map (·.toListMeta) := by
  cases ref with
  | none => rfl
  | some ref => exact modify_map _ _ fun list => rfl

def metaAt (s : Store) (ref : Nat) : Option ListMeta := s.heap[ref]?.map (·.toListMeta)

theorem keyAt_eq (s : Store) (ref : Nat) : s.keyAt ref = ((s.metaAt ref).map getListKey).getD "" := by
  rw [metaAt,Option.map_map]
  rfl

theorem insertList_metaAt_old (list : TokenlistEntry) {ref : Nat} (inside : ref < s.heap.length) :
    (s.insertList list).metaAt ref = s.metaAt ref :=
  congrArg (Option.map TokenlistEntry.toListMeta) (List.getElem?_append_left inside)

theorem insertList_metaAt_new (s : Store) (list : TokenlistEntry) :
    (s.insertList list).metaAt s.heap.length = some list.toListMeta :=
  congrArg (Option.map TokenlistEntry.toListMeta) List.getElem?_concat_length

theorem setLocalTokens_metaAt (s : Store) (tokens : List Element) : (s.setLocalTokens tokens).metaAt = s.metaAt := by
  funext ref
  have same : (s.setLocalTokens tokens).heap.map (·.toListMeta) = s.heap.map (·.toListMeta) :=
    (showTokens_metas _ _ _).trans (showTokens_metas _ _ _)
  have here := congrArg (·[ref]?) same
  simpa only [metaAt,List.getElem?_map] using here

theorem showTokens_length (tokens : List Element) (heap : List TokenlistEntry) (ref : Option Nat) :
    (showTokens tokens heap ref).length = heap.length := by
  cases ref with
  | none => rfl
  | some ref => exact List.length_modify ..

theorem setLocalTokens_length (s : Store) (tokens : List Element) :
    (s.setLocalTokens tokens).heap.length = s.heap.length :=
  (showTokens_length _ _ _).trans (showTokens_length _ _ _)

theorem switchList_length (s : Store) (key : String) : (s.switchList key).heap.length = s.heap.length := by
  unfold switchList
  dsimp only
  split
  · exact List.length_modify ..
  · rfl

theorem insertList_nodup (distinct : s.lists.Nodup) (inside : ∀ ref ∈ s.lists, ref < s.heap.length) (list : TokenlistEntry) :
    (s.insertList list).lists.Nodup :=
  (List.perm_insertIdx _ _ (Nat.sub_le _ _)).nodup_iff.mpr
    (List.nodup_cons.mpr ⟨fun member => Nat.lt_irrefl _ (inside _ member),distinct⟩)

/-- No reference occurs twice, so the place that is cut out and the reference that is erased are one list. -/
theorem dropList_lists {index ref : Nat} (distinct : s.lists.Nodup) (found : s.lists[index]? = some ref) :
    (s.dropList index ref).lists = s.lists.erase ref := by
  obtain ⟨within,here⟩ := List.getElem?_eq_some_iff.mp found
  rw [← here]
  exact (distinct.erase_getElem index within).symm

end Store

end YPriceMagic.Frontend
