import YPriceMagic.Frontend.IndexEntries
import YPriceMagic.Frontend.Reachable

/-! Adding a list: a JSON document, from a URL or from a file, becomes a list of the store, or the
dialog reports an error. -/
namespace YPriceMagic.Frontend

def Json.text : Option Json → Option String
  | some (.string text) => some text
  | _ => none

def Json.integer : Option Json → Option Int
  | some (.number value) => if value.den = 1 then some value.num else none
  | _ => none

def Element.ofJson : Json → Element
  | .object fields =>
    match JsMap.get fields "address" with
    | some (.string address) => .token {
        chainId := Json.integer (JsMap.get fields "chainId")
        address
        symbol := Json.text (JsMap.get fields "symbol")
        name := Json.text (JsMap.get fields "name")
        decimals := ((Json.integer (JsMap.get fields "decimals")).getD 0).toNat}
    | _ => .malformed
  | _ => .malformed

/-- The text that stands for a name, also for one that is no text; whether a value is a list's
name (`===`); and the engine's text of a TypeError. -/
structure Texts where
  ofName : Option Json → String
  isName : String → Option Json → Bool
  typeError : String

namespace Store

variable (bundle : Bundle) (texts : Texts)

/-- What a parsed document adds, where nothing speaks against it. -/
def addDocument (s : Store) (parsed : Json) (entry : String → List Element → TokenlistEntry) (invalid thrown : String)
    (success : String → Nat → String) : Store × Message :=
  match parsed.get "name",parsed.get "tokens" with
  | .ok name,.ok (some (.array tokens)) =>
    if truthy name = false then (s,.error invalid)
    else if (s.entries s.allLists).any fun list => texts.isName list.name name then
      (s,.error s!"A list named \"{texts.ofName name}\" already exists")
    else
      let added := s.addList bundle (entry (texts.ofName name) (tokens.map Element.ofJson))
      match added.2 with
      | .ok _ => (added.1,.success (success (texts.ofName name) tokens.length))
      | .error _ => (added.1,.error thrown)
  | .ok _,.ok _ => (s,.error invalid)
  | _,_ => (s,.error thrown)

/-- The `reader.onload` of `handleFileImport`; `none` is a text that is not JSON. -/
def importFile (s : Store) : Option Json → Store × Message
  | none => (s,.error "Failed to parse file as JSON")
  | some parsed => s.addDocument bundle texts parsed fileList "Invalid tokenlist file: missing name or tokens array"
      "Failed to parse file as JSON" fun name count => s!"Imported \"{name}\" with {count} tokens"

/-- `addByUrl` from its answer on; a fetch that failed or timed out has a message. -/
def finishAddByUrl (s : Store) (url : String) : Except String Json → Store × Message
  | .error message => (s,.error message)
  | .ok list => s.addDocument bundle texts list (urlList url) "Invalid tokenlist structure: missing name or tokens array"
      texts.typeError fun name count => s!"Successfully added \"{name}\" with {count} tokens"

end Store

/-- Where a document comes from. -/
inductive Origin
  | url (url : String)
  | file

def Origin.entry : Origin → String → List Element → TokenlistEntry
  | .url target => urlList target
  | .file => fileList

namespace Store

variable (bundle : Bundle) (texts : Texts)

variable {bundle texts} {s : Store}

theorem insertList_entries (listed : s.Listed) (list entry : TokenlistEntry) :
    entry ∈ (s.insertList list).entries (s.insertList list).lists ↔ entry = list ∨ entry ∈ s.entries s.lists := by
  have kept (ref : Nat) (inside : ref < s.heap.length) : (s.insertList list).heap[ref]? = s.heap[ref]? :=
    List.getElem?_append_left inside
  have new : (s.insertList list).heap[s.heap.length]? = some list := by simp [insertList,saveUserLists]
  unfold entries
  simp only [List.mem_filterMap]
  constructor
  · rintro ⟨ref,member,found⟩
    rcases (List.mem_insertIdx (Nat.sub_le _ _)).mp member with rfl | old
    · exact Or.inl (Option.some.inj (found.symm.trans new))
    · exact Or.inr ⟨ref,old,(kept ref (listed.inside ref old)).symm.trans found⟩
  · rintro (rfl | ⟨ref,old,found⟩)
    · exact ⟨_,(List.mem_insertIdx (Nat.sub_le _ _)).mpr (Or.inl rfl),new⟩
    · exact ⟨ref,(List.mem_insertIdx (Nat.sub_le _ _)).mpr (Or.inr old),(kept ref (listed.inside ref old)).trans found⟩

theorem insertList_readable (listed : s.Listed) (list : TokenlistEntry) :
    (∀ entry ∈ (s.insertList list).entries (s.insertList list).lists, entry.Readable) ↔
      list.Readable ∧ ∀ entry ∈ s.entries s.lists, entry.Readable := by
  simp only [insertList_entries listed]
  exact ⟨fun all => ⟨all list (Or.inl rfl),fun entry member => all entry (Or.inr member)⟩,
    fun both entry member => member.elim (fun same => same ▸ both.1) (both.2 entry)⟩

theorem addList_cases (bundle : Bundle) (s : Store) (list : TokenlistEntry) :
    (∃ tokenIndex, buildTokenIndex bundle ((s.insertList list).entries (s.insertList list).lists) = .ok tokenIndex ∧
      s.addList bundle list = ({s.insertList list with tokenIndex,allLists := (s.insertList list).lists},.ok ())) ∨
    ((∃ error, buildTokenIndex bundle ((s.insertList list).entries (s.insertList list).lists) = .error error ∧
      s.addList bundle list = (s.insertList list,.error error))) := by
  unfold addList rebuildAndSync
  cases built : buildTokenIndex bundle ((s.insertList list).entries (s.insertList list).lists) with
  | ok tokenIndex => exact Or.inl ⟨tokenIndex,rfl,rfl⟩
  | error error => exact Or.inr ⟨error,rfl,rfl⟩

section
variable {parsed : Json} {name : Option Json} {tokens : List Json} {entry : String → List Element → TokenlistEntry}
  {invalid thrown : String} {success : String → Nat → String} (named : parsed.get "name" = .ok name)
  (there : truthy name = true) (listed : parsed.get "tokens" = .ok (some (.array tokens)))

include named there listed

end

/-- Where the name is a text, this is the import of a document. -/
theorem importFile_text {name : String} (reads : texts.ofName (some (.string name)) = name)
    (compares : ∀ other, texts.isName other (some (.string name)) = decide (other = name)) (tokens : List Json) :
    s.importFile bundle texts (some (.object [("name",.string name),("tokens",.array tokens)])) =
      s.handleFileImport bundle (some ⟨name,some (tokens.map Element.ofJson)⟩) := by
  have named : (Json.object [("name",.string name),("tokens",.array tokens)]).get "name" = .ok (some (.string name)) := rfl
  have listed : (Json.object [("name",.string name),("tokens",.array tokens)]).get "tokens" = .ok (some (.array tokens)) := rfl
  simp only [importFile,addDocument,handleFileImport,named,listed,reads,compares,truthy,List.length_map]
  by_cases empty : name = ""
  · simp [empty]
  · cases (s.addList bundle (fileList name (tokens.map Element.ofJson))).2 <;>
      simp only [empty,ne_eq,not_false_eq_true,decide_true,Bool.true_eq_false,if_false]

def plainTexts : Texts where
  ofName name := (Json.text name).getD "undefined"
  isName name value := match value with
    | some (.string text) => decide (name = text)
    | _ => false
  typeError := "Cannot read properties of null (reading 'address')"

def namedDocument (name : String) (tokens : List Json) : Json := .object [("name",.string name),("tokens",.array tokens)]

end Store

end YPriceMagic.Frontend
