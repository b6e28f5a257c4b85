import Mathlib.Data.List.AList
import YPriceMagic.Python.Replace
import YPriceMagic.Server.Responses

/-! What keeps the deployment's secrets out of the error messages for clients and out of the log. -/
namespace YPriceMagic.Server
open YPriceMagic.Python

/-- A secret without brackets that the marker between them does not contain. -/
structure Maskable (secret marker : String) : Prop where
  opens : '[' ∉ secret.toList
  closes : ']' ∉ secret.toList
  foreign : containsText secret marker = false

/-- Neither secret of the deployment occurs in the text. -/
def Clean (config : Config) (text : String) : Prop :=
  containsText config.rpcUrl text = false ∧ containsText config.etherscanToken text = false

theorem containsText_iff (needle text : String) : containsText needle text = false ↔ ¬needle.toList <:+: text.toList := by
  simp [containsText]

theorem replaceAll_replaced {old new : List Char} (nonempty : old ≠ []) (skipped : Nat) (text : List Char) :
    Replaced old new (text.drop skipped) (replaceAll old new skipped text) := by
  induction text generalizing skipped with
  | nil =>
    rw [List.drop_nil]
    cases skipped <;> exact .finished
  | cons c rest ih =>
    cases skipped with
    | succ skipped => exact ih skipped
    | zero =>
      rw [List.drop_zero,replaceAll]
      split
      · rename_i begins
        obtain ⟨after,same⟩ := List.isPrefixOf_iff_prefix.mp begins
        have length : 0 < old.length := List.length_pos_of_ne_nil nonempty
        have later : rest.drop (old.length-1) = after := by
          rw [← List.drop_succ_cons (a := c),Nat.sub_add_cancel length,← same,List.drop_left]
        have scanned := ih (old.length-1)
        rw [later] at scanned
        rw [← same]
        exact .replaced scanned
      · rename_i other
        exact .kept (fun begins => other (List.isPrefixOf_iff_prefix.mpr begins)) (ih 0)

section
variable {secret old new marker text : String} (bracketed : new.toList = '['::marker.toList++[']'])

theorem toList_ne_nil (nonempty : old ≠ "") : old.toList ≠ [] := by
  rw [Ne,← String.toList_empty,String.toList_inj]
  exact nonempty

theorem replaceText_replaced (nonempty : old ≠ "") (text new : String) :
    Replaced old.toList new.toList text.toList (replaceText text old new).toList := by
  rw [replaceText,String.toList_ofList]
  exact replaceAll_replaced (toList_ne_nil nonempty) 0 text.toList

include bracketed

theorem replaceText_gone (nonempty : old ≠ "") (maskable : Maskable old marker) :
    containsText old (replaceText text old new) = false := by
  have replaced := replaceText_replaced nonempty text new
  rw [bracketed] at replaced
  exact (containsText_iff _ _).mpr
    (Replaced.gone maskable.opens maskable.closes ((containsText_iff _ _).mp maskable.foreign) replaced)

/-- A replacement brings no secret into a text that did not contain it. -/
theorem replaceText_keeps (nonempty : old ≠ "") (maskable : Maskable secret marker)
    (absent : containsText secret text = false) :
    containsText secret (replaceText text old new) = false := by
  have replaced := replaceText_replaced nonempty text new
  rw [bracketed] at replaced
  refine (containsText_iff _ _).mpr fun found => ?_
  exact (Replaced.found maskable.opens maskable.closes replaced found).elim
    ((containsText_iff _ _).mp maskable.foreign) ((containsText_iff _ _).mp absent)

end

theorem Maskable.shorter {secret marker longer : String} (maskable : Maskable secret longer)
    (inside : marker.toList <:+: longer.toList) : Maskable secret marker := by
  refine ⟨maskable.opens,maskable.closes,(containsText_iff _ _).mpr fun found => ?_⟩
  exact (containsText_iff _ _).mp maskable.foreign (found.trans inside)

theorem ne_empty {text : String} (long : 4 < text.length) : text ≠ "" := by
  rintro rfl
  cases long

theorem redacted_url_marker : "[REDACTED_URL]".toList = '['::"REDACTED_URL".toList++[']'] := rfl

theorem rpc_url_marker : "[RPC_URL]".toList = '['::"RPC_URL".toList++[']'] := rfl

theorem redacted_marker : "[REDACTED]".toList = '['::"REDACTED".toList++[']'] := rfl

/-- `if secret and secret in msg: msg = msg.replace(secret, new)`. -/
def scrub (present : Bool) (secret new msg : String) : String :=
  if present && containsText secret msg then replaceText msg secret new else msg

section
variable {present : Bool} {secret other new marker msg : String} (bracketed : new.toList = '['::marker.toList++[']'])
include bracketed

theorem scrub_gone (nonempty : secret ≠ "") (maskable : Maskable secret marker) (given : present = true) :
    containsText secret (scrub present secret new msg) = false := by
  rw [scrub,given,Bool.true_and]
  split
  · exact replaceText_gone bracketed nonempty maskable
  · rename_i absent
    exact Bool.eq_false_iff.mpr absent

theorem scrub_keeps (nonempty : secret ≠ "") (maskable : Maskable other marker) (absent : containsText other msg = false) :
    containsText other (scrub present secret new msg) = false := by
  unfold scrub
  split
  · exact replaceText_keeps bracketed nonempty maskable absent
  · exact absent

end

section
variable (config : Config)

def urlGiven : Bool := config.rpcUrl ≠ ""

def tokenGiven : Bool := config.etherscanToken ≠ "" && decide (4 < config.etherscanToken.length)

theorem tokenGiven_iff : tokenGiven config = true ↔ 4 < config.etherscanToken.length := by
  unfold tokenGiven
  constructor
  · intro given
    simpa using (Bool.and_eq_true_iff.mp given).2
  · intro long
    simp [ne_empty long,long]

/-- No message for a client contains a secret, wherever the message had them. -/
theorem sanitizeErrorMessage_clean (msg : String) (url : config.rpcUrl ≠ "") (token : 4 < config.etherscanToken.length)
    (urlMaskable : Maskable config.rpcUrl "REDACTED_URL")
    (tokenMaskable : Maskable config.etherscanToken "REDACTED_URL") : Clean config (sanitizeErrorMessage config msg) := by
  have inside : "REDACTED".toList <:+: "REDACTED_URL".toList := by decide
  have urlGone : containsText config.rpcUrl (scrub (urlGiven config) config.rpcUrl "[REDACTED_URL]" msg) = false :=
    scrub_gone redacted_url_marker url urlMaskable (decide_eq_true url)
  change Clean config (scrub (tokenGiven config) config.etherscanToken "[REDACTED]"
    (scrub (urlGiven config) config.rpcUrl "[REDACTED_URL]" msg))
  exact ⟨scrub_keeps redacted_marker (ne_empty token) (urlMaskable.shorter inside) urlGone,
    scrub_gone redacted_marker (ne_empty token) (tokenMaskable.shorter inside) ((tokenGiven_iff config).mpr token)⟩

end

/-- A deployment with both secrets. -/
def deployed : Config := {ethereum with rpcUrl := "https://node/key",etherscanToken := "ABCDEF"}

/-- The second replacement cuts a piece out of a broken first secret. -/
theorem sanitize_deployed :
    Clean deployed (sanitizeErrorMessage deployed "at https://noABCDEFde/key and https://node/keyABCDEF") := by
  refine sanitizeErrorMessage_clean deployed _ (by decide) (by decide) ?_ ?_ <;> constructor <;> decide

/-- A value of a log event: a string, or another value with its `str`. -/
inductive LogValue
  | string (text : String)
  | other (shown : String)
  deriving DecidableEq, Repr

/-- `str(value)`. -/
def LogValue.str : LogValue → String
  | string text => text
  | other shown => shown

abbrev EventDict := AList (fun _ : String => LogValue)

def sensitiveKeys : List String := ["rpc_url","url","host","api_key","etherscan_token"]

section
variable (lower : String → String) (config : Config)

/-- The loop over the keys; `lower` is `str.lower`. -/
def redactKeys (eventDict : EventDict) : List String → EventDict
  | [] => eventDict
  | key::keys =>
    redactKeys (if lower key ∈ sensitiveKeys then eventDict.insert key (.string "[REDACTED]") else eventDict) keys

def scrubUrl (msg : String) (eventDict : EventDict) : EventDict :=
  if urlGiven config && containsText config.rpcUrl msg then
    eventDict.insert "event" (.string (replaceText msg config.rpcUrl "[RPC_URL]")) else eventDict

/-- The token is sought in the event as it was before. -/
def scrubToken (msg : String) (eventDict : EventDict) : EventDict :=
  if tokenGiven config && containsText config.etherscanToken msg then
    eventDict.insert "event" (.string (replaceText ((eventDict.lookup "event").getD (.string "")).str
      config.etherscanToken "[REDACTED]")) else eventDict

def scrubEvent (eventDict : EventDict) : EventDict :=
  match (eventDict.lookup "event").getD (.string "") with
  | .other _ => eventDict
  | .string msg => scrubToken config msg (scrubUrl config msg eventDict)

def redactSecrets (eventDict : EventDict) : EventDict := scrubEvent config (redactKeys lower eventDict eventDict.keys)

theorem redactKeys_lookup (eventDict : EventDict) (keys : List String) (key : String) :
    (redactKeys lower eventDict keys).lookup key =
      if key ∈ keys ∧ lower key ∈ sensitiveKeys then some (.string "[REDACTED]") else eventDict.lookup key := by
  induction keys generalizing eventDict with
  | nil => simp [redactKeys]
  | cons first keys ih =>
    rw [redactKeys,ih]
    by_cases same : key = first
    · subst same
      by_cases sensitive : lower key ∈ sensitiveKeys <;> simp [sensitive]
    · by_cases sensitive : lower first ∈ sensitiveKeys
      · simp [sensitive,same,AList.lookup_insert_ne same]
      · simp [sensitive,same]

theorem redacted_lookup (eventDict : EventDict) (key : String) :
    (redactKeys lower eventDict eventDict.keys).lookup key =
      if lower key ∈ sensitiveKeys then (eventDict.lookup key).map fun _ => .string "[REDACTED]"
      else eventDict.lookup key := by
  rw [redactKeys_lookup]
  by_cases sensitive : lower key ∈ sensitiveKeys
  · cases found : eventDict.lookup key with
    | none =>
      have absent : key ∉ eventDict.keys := AList.lookup_eq_none.mp found
      simp [sensitive,absent]
    | some value =>
      have present : key ∈ eventDict.keys := AList.lookup_isSome.mp (by rw [found]; rfl)
      simp [sensitive,present]
  · simp [sensitive]

theorem scrubEvent_other (eventDict : EventDict) {key : String} (other : key ≠ "event") :
    (scrubEvent config eventDict).lookup key = eventDict.lookup key := by
  unfold scrubEvent
  split
  · rfl
  · unfold scrubToken scrubUrl
    split <;> split <;> simp [AList.lookup_insert_ne other]

/-- The event that is left of a string. -/
def scrubbedEvent (msg : String) : String :=
  let first := scrub (urlGiven config) config.rpcUrl "[RPC_URL]" msg
  if tokenGiven config && containsText config.etherscanToken msg then
    replaceText first config.etherscanToken "[REDACTED]" else first

theorem containsText_empty {secret : String} (nonempty : secret ≠ "") : containsText secret "" = false := by
  refine (containsText_iff _ _).mpr fun found => toList_ne_nil nonempty ?_
  exact List.infix_nil.mp found

theorem scrubEvent_absent {eventDict : EventDict} (absent : eventDict.lookup "event" = none) :
    scrubEvent config eventDict = eventDict := by
  have noUrl : (urlGiven config && containsText config.rpcUrl "") = false := by
    by_cases empty : config.rpcUrl = ""
    · simp [urlGiven,empty]
    · rw [containsText_empty empty,Bool.and_false]
  have noToken : (tokenGiven config && containsText config.etherscanToken "") = false := by
    by_cases empty : config.etherscanToken = ""
    · simp [tokenGiven,empty]
    · rw [containsText_empty empty,Bool.and_false]
  simp [scrubEvent,scrubToken,scrubUrl,absent,noUrl,noToken]

theorem scrubUrl_event {eventDict : EventDict} {msg : String} (found : eventDict.lookup "event" = some (.string msg)) :
    (scrubUrl config msg eventDict).lookup "event" =
      some (.string (scrub (urlGiven config) config.rpcUrl "[RPC_URL]" msg)) := by
  unfold scrubUrl scrub
  split
  · exact AList.lookup_insert _
  · exact found

theorem scrubEvent_string {eventDict : EventDict} {msg : String} (found : eventDict.lookup "event" = some (.string msg)) :
    (scrubEvent config eventDict).lookup "event" = some (.string (scrubbedEvent config msg)) := by
  have first := scrubUrl_event config found
  rw [scrubEvent,found,Option.getD_some]
  dsimp only
  rw [scrubToken,scrubbedEvent,first]
  split
  · exact AList.lookup_insert _
  · exact first

theorem scrubEvent_event {eventDict : EventDict} {text : String}
    (found : (scrubEvent config eventDict).lookup "event" = some (.string text)) :
    ∃ msg, text = scrubbedEvent config msg := by
  cases before : eventDict.lookup "event" with
  | none =>
    rw [scrubEvent_absent config before,before] at found
    cases found
  | some value =>
    cases value with
    | string msg =>
      rw [scrubEvent_string config before] at found
      exact ⟨msg,(LogValue.string.inj (Option.some.inj found)).symm⟩
    | other shown =>
      rw [scrubEvent,before,Option.getD_some] at found
      dsimp only at found
      rw [before] at found
      cases found

section
variable (url : config.rpcUrl ≠ "") (token : 4 < config.etherscanToken.length)
  (urlMasked : Maskable config.rpcUrl "REDACTED" ∧ Maskable config.rpcUrl "RPC_URL")
  (tokenMasked : Maskable config.etherscanToken "REDACTED" ∧ Maskable config.etherscanToken "RPC_URL")
include url token urlMasked tokenMasked

theorem scrubbedEvent_clean (msg : String) : Clean config (scrubbedEvent config msg) := by
  have nonempty := ne_empty token
  have urlGone : containsText config.rpcUrl (scrub (urlGiven config) config.rpcUrl "[RPC_URL]" msg) = false :=
    scrub_gone rpc_url_marker url urlMasked.2 (decide_eq_true url)
  unfold scrubbedEvent
  dsimp only
  rw [(tokenGiven_iff config).mpr token,Bool.true_and]
  split
  · exact ⟨replaceText_keeps redacted_marker nonempty urlMasked.1 urlGone,
      replaceText_gone redacted_marker nonempty tokenMasked.1⟩
  · rename_i absent
    exact ⟨urlGone,scrub_keeps rpc_url_marker url tokenMasked.2 (Bool.eq_false_iff.mpr absent)⟩

theorem redacted_clean : Clean config "[REDACTED]" := by
  have marked {secret : String} (nonempty : secret ≠ "") (maskable : Maskable secret "REDACTED") :
      containsText secret "[REDACTED]" = false := by
    refine (containsText_iff _ _).mpr fun found => ?_
    rw [redacted_marker,← List.append_nil ('['::_++_)] at found
    obtain inside | later := Replaced.within maskable.opens maskable.closes found
    · exact (containsText_iff _ _).mp maskable.foreign inside
    · exact toList_ne_nil nonempty (List.infix_nil.mp later)
  exact ⟨marked url urlMasked.1,marked (ne_empty token) tokenMasked.1⟩

/-- Exactly the values are clean that stand under a sensitive key or are the event, and those that
were clean before. -/
theorem redactSecrets_clean_iff (eventDict : EventDict) :
    (∀ key text, (redactSecrets lower config eventDict).lookup key = some (.string text) → Clean config text) ↔
      ∀ key text, eventDict.lookup key = some (.string text) → key ≠ "event" → lower key ∉ sensitiveKeys →
        Clean config text := by
  unfold redactSecrets
  constructor
  · intro clean key text found other plain
    refine clean key text ?_
    rw [scrubEvent_other config _ other,redacted_lookup,if_neg plain]
    exact found
  · intro clean key text found
    by_cases event : key = "event"
    · subst event
      obtain ⟨msg,rfl⟩ := scrubEvent_event config found
      exact scrubbedEvent_clean config url token urlMasked tokenMasked msg
    · rw [scrubEvent_other config _ event,redacted_lookup] at found
      split at found
      · obtain ⟨_,_,same⟩ := Option.map_eq_some_iff.mp found
        rw [← LogValue.string.inj same]
        exact redacted_clean config url token urlMasked tokenMasked
      · rename_i plain
        exact clean key text found event plain

end

end

theorem deployed_masked :
    (Maskable deployed.rpcUrl "REDACTED" ∧ Maskable deployed.rpcUrl "RPC_URL") ∧
    Maskable deployed.etherscanToken "REDACTED" ∧ Maskable deployed.etherscanToken "RPC_URL" := by
  refine ⟨⟨?_,?_⟩,?_,?_⟩ <;> constructor <;> decide

/-- The event of a failed start, with the text of its exception. -/
def startupFailed : EventDict :=
  AList.insert "error" (.string "401 for https://node/key") (AList.singleton "event" (.string "startup_failed"))

theorem redactSecrets_startupFailed :
    (∀ key text, (redactSecrets String.toLower deployed startupFailed).lookup key = some (.string text) →
      Clean deployed text) ↔
    ∀ key text, startupFailed.lookup key = some (.string text) → key ≠ "event" → key.toLower ∉ sensitiveKeys →
      Clean deployed text :=
  redactSecrets_clean_iff String.toLower deployed (by decide) (by decide) deployed_masked.1 deployed_masked.2 startupFailed

/-- Nothing scrubs the text of an exception. -/
theorem error_leaks :
    deployed.rpcUrl ≠ "" ∧ 4 < deployed.etherscanToken.length ∧
    (Maskable deployed.rpcUrl "REDACTED" ∧ Maskable deployed.rpcUrl "RPC_URL") ∧
    (Maskable deployed.etherscanToken "REDACTED" ∧ Maskable deployed.etherscanToken "RPC_URL") ∧
    ¬∀ key text, (redactSecrets String.toLower deployed startupFailed).lookup key = some (.string text) →
      Clean deployed text := by
  refine ⟨by decide,by decide,deployed_masked.1,deployed_masked.2,fun clean => ?_⟩
  have shown : (redactSecrets String.toLower deployed startupFailed).lookup "error" =
      some (.string "401 for https://node/key") := by decide +kernel
  have leaked : containsText deployed.rpcUrl "401 for https://node/key" = true := by decide
  rw [(clean _ _ shown).1] at leaked
  cases leaked

end YPriceMagic.Server
