import YPriceMagic.Frontend.StoreSteps

/-! The lists that the tokenlist dialog adds. -/
namespace YPriceMagic.Frontend

/-- The list of a URL, with what the URL answered. -/
def urlList (url name : String) (tokens : List Element) : TokenlistEntry where
  name
  url := some url
  isDefault := false
  isLocal := false
  enabled := true
  error := none
  tokens

def fileList (name : String) (tokens : List Element) : TokenlistEntry where
  name
  url := none
  isDefault := false
  isLocal := false
  enabled := true
  error := none
  tokens

/-- A parsed file; tokens that are no array are `none`. -/
structure Document where
  name : String
  tokens : Option (List Element)

inductive Message
  | success (text : String)
  | error (text : String)
  deriving DecidableEq, Repr

namespace Store

variable (bundle : Bundle)

/-- `none` is a file that is not JSON, or is `null`. What `addList` throws is caught too. -/
def handleFileImport (s : Store) : Option Document → Store × Message
  | none => (s,.error "Failed to parse file as JSON")
  | some parsed =>
    match parsed.tokens with
    | none => (s,.error "Invalid tokenlist file: missing name or tokens array")
    | some tokens =>
      if parsed.name = "" then (s,.error "Invalid tokenlist file: missing name or tokens array")
      else if (s.entries s.allLists).any fun list => decide (list.name = parsed.name) then
        (s,.error s!"A list named \"{parsed.name}\" already exists")
      else
        let added := s.addList bundle (fileList parsed.name tokens)
        match added.2 with
        | .ok _ => (added.1,.success s!"Imported \"{parsed.name}\" with {tokens.length} tokens")
        | .error _ => (added.1,.error "Failed to parse file as JSON")

theorem handleFileImport_cases (s : Store) (file : Option Document) :
    (s.handleFileImport bundle file).1 = s ∨ ∃ parsed tokens, file = some parsed ∧ parsed.tokens = some tokens ∧
      some (s.handleFileImport bundle file).1 = s.step bundle (.addList (fileList parsed.name tokens)) := by
  unfold handleFileImport
  split
  · exact Or.inl rfl
  · rename_i parsed
    split
    · exact Or.inl rfl
    · rename_i tokens found
      split
      · exact Or.inl rfl
      · split
        · exact Or.inl rfl
        · refine Or.inr ⟨parsed,tokens,rfl,found,?_⟩
          dsimp only
          split <;> rfl

end Store

end YPriceMagic.Frontend
