import YPriceMagic.Server.Params

/-! The query parameters that `/price` and `/prices` declare, read from a decoded query string. -/
namespace YPriceMagic.Server
open YPriceMagic.Python

/-- `Query(None)`: the last value of the name; other names are ignored. -/
def queryParam (query : List (String × String)) (name : String) : Option String :=
  (query.reverse.find? (·.1 = name)).map Prod.snd

section
variable (now : Datetime.Utc)

def priceQuery (query : List (String × String)) : Parser PriceParams :=
  let param := queryParam query
  parsePriceParams now (param "token") (param "block") (param "amount") (param "ignore_pools") (param "timestamp")

def pricesQuery (query : List (String × String)) : Parser BatchParams :=
  let param := queryParam query
  parseBatchParams now (param "tokens") (param "block") (param "amounts") (param "timestamp")

end

@[simp] theorem queryParam_nil (name : String) : queryParam [] name = none := rfl

theorem queryParam_append (query rest : List (String × String)) (name : String) :
    queryParam (query ++ rest) name = (queryParam rest name).or (queryParam query name) := by
  unfold queryParam
  rw [List.reverse_append,List.find?_append,Option.map_or]

theorem queryParam_singleton (pair : String × String) (name : String) :
    queryParam [pair] name = if pair.1 = name then some pair.2 else none := by
  by_cases same : pair.1 = name <;> simp [queryParam,same]

theorem queryParam_cons (pair : String × String) (query : List (String × String)) (name : String) :
    queryParam (pair::query) name = (queryParam query name).or (if pair.1 = name then some pair.2 else none) := by
  rw [← List.singleton_append,queryParam_append,queryParam_singleton]

theorem queryParam_filter (query : List (String × String)) (dropped name : String) :
    queryParam (query.filter (·.1 ≠ dropped)) name = if name = dropped then none else queryParam query name := by
  induction query with
  | nil => simp
  | cons pair query ih =>
    by_cases removed : pair.1 = dropped
    · rw [List.filter_cons_of_neg (by simp [removed]),ih,queryParam_cons]
      by_cases same : name = dropped
      · simp [same]
      · have other : pair.1 ≠ name := fun equal => same (equal.symm.trans removed)
        simp [same,other]
    · rw [List.filter_cons_of_pos (by simp [removed]),queryParam_cons,ih,queryParam_cons]
      by_cases same : name = dropped
      · subst same
        simp [removed]
      · simp [same]

end YPriceMagic.Server
