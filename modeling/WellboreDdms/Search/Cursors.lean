import WellboreDdms.Machine.Effect
import WellboreDdms.Records.Record

/-!
# Queries with a cursor

The search service answers a query page by page: a page comes with the cursor of the next
one, the last page with none. `query_cursorless` repeats the query until there is no cursor,
and collects the results.

- `SearchService`: the service, as a step of its own state.
- `Serves`: the pages it serves, from a state on.
- `queryPages_of_serves`: the loop ends after the last page, whose results it does not collect.
- `query_cursorless_iff`: for which pages nothing is lost.
-/

namespace WellboreDdms

open Machine

variable {σ κ ρ : Type}

/-- The fields of the request that the wrapper sets, and the query of the client. -/
structure CursorQueryRequest (κ : Type) where
  query : κ
  limit : Int
  cursor : Option String := none

/-- A page of the search service; all of its fields are optional. -/
structure CursorQueryResponse (ρ : Type) where
  cursor : Option String := none
  results : Option (List ρ) := none
  totalCount : Option Int := none

/-- `query_with_cursor`. -/
abbrev SearchService (σ κ ρ : Type) :=
  CursorQueryRequest κ → Effect σ Raised (CursorQueryResponse ρ)

namespace SearchWrapper

variable (queryWithCursor : SearchService σ κ ρ)

/-- `agregated_result.results.extend(query_result.results)`, and the total count. -/
def extend (aggregatedResult queryResult : CursorQueryResponse ρ) :
    Except Raised (CursorQueryResponse ρ) :=
  match aggregatedResult.results, queryResult.results with
  | some results, some page =>
    .ok { aggregatedResult with
      results := some (results ++ page)
      totalCount := queryResult.totalCount }
  | _, _ => .error .typeError

/-- The cursor, if it is not falsy. -/
def truthyCursor (queryResult : CursorQueryResponse ρ) : Option String :=
  queryResult.cursor.filter fun cursor => cursor ≠ ""

/-- The loop, for `fuel` queries; it returns `none` if it has not ended by then. -/
def queryPages : Nat → CursorQueryRequest κ → CursorQueryResponse ρ →
    Effect σ Raised (Option (CursorQueryResponse ρ))
  | 0, _, _ => pure none
  | fuel + 1, request, aggregatedResult => do
    let queryResult ← queryWithCursor request
    match truthyCursor queryResult with
    | none => return some aggregatedResult
    | some cursor => do
      let aggregatedResult ← Effect.lift (extend aggregatedResult queryResult)
      queryPages fuel { request with cursor := some cursor } aggregatedResult

/-- The first request has no cursor and the greatest limit. -/
def firstRequest (query : κ) : CursorQueryRequest κ := { query := query, limit := 100 }

/-- `query_cursorless`; `created` is what `CursorQueryResponse()` creates. -/
def queryCursorless (created : CursorQueryResponse ρ) (query : κ) (fuel : Nat) :
    Effect σ Raised (Option (CursorQueryResponse ρ)) :=
  queryPages queryWithCursor fuel (firstRequest query) { created with results := some [] }

/-! ## The pages -/

/-- From the state `s`, the service answers the request, and those with the cursors it gives,
with these pages. -/
inductive Serves : σ → CursorQueryRequest κ → List (CursorQueryResponse ρ) → Prop
  | last {s t : σ} {request : CursorQueryRequest κ} {page : CursorQueryResponse ρ}
    (hquery : queryWithCursor request s = (.ok page, t)) (hcursor : truthyCursor page = none) :
    Serves s request [page]
  | next {s t : σ} {request : CursorQueryRequest κ} {page : CursorQueryResponse ρ}
    {pages : List (CursorQueryResponse ρ)} {cursor : String} {results : List ρ}
    (hquery : queryWithCursor request s = (.ok page, t))
    (hcursor : truthyCursor page = some cursor) (hresults : page.results = some results)
    (hrest : Serves t { request with cursor := some cursor } pages) :
    Serves s request (page :: pages)

/-- The results of all pages, in order. -/
def allResults (pages : List (CursorQueryResponse ρ)) : List ρ :=
  pages.flatMap fun page => page.results.getD []

/-- The total count of the last of the pages. -/
def lastTotal (created : CursorQueryResponse ρ) (pages : List (CursorQueryResponse ρ)) :
    Option Int :=
  (pages.getLast?.getD created).totalCount

section

variable {queryWithCursor : SearchService σ κ ρ} {s : σ} {request : CursorQueryRequest κ}

theorem Serves.ne_nil {pages : List (CursorQueryResponse ρ)}
    (h : Serves queryWithCursor s request pages) : pages ≠ [] := by
  cases h with
  | last => exact List.cons_ne_nil _ _
  | next => exact List.cons_ne_nil _ _

/-- Only the total of the results before it matters. -/
theorem lastTotal_cons {created created' page : CursorQueryResponse ρ}
    (h : created'.totalCount = page.totalCount) (pages : List (CursorQueryResponse ρ)) :
    lastTotal created (page :: pages) = lastTotal created' pages := by
  rw [lastTotal, lastTotal, List.getLast?_cons]
  cases pages.getLast? with
  | none => exact h.symm
  | some last => rfl

/-- A page without cursor is the last one, and is not added. -/
theorem queryPages_last {t : σ} {page aggregated : CursorQueryResponse ρ}
    (hquery : queryWithCursor request s = (.ok page, t)) (hcursor : truthyCursor page = none)
    (fuel : Nat) :
    queryPages queryWithCursor (fuel + 1) request aggregated s = (.ok (some aggregated), t) := by
  simp only [queryPages, bind, hquery, hcursor]
  rfl

/-- A page with a cursor is added, and the next one is asked for. -/
theorem queryPages_next {t : σ} {page aggregated : CursorQueryResponse ρ} {cursor : String}
    {results pageResults : List ρ} (hquery : queryWithCursor request s = (.ok page, t))
    (hcursor : truthyCursor page = some cursor) (hresults : aggregated.results = some results)
    (hpage : page.results = some pageResults) (fuel : Nat) :
    queryPages queryWithCursor (fuel + 1) request aggregated s =
      queryPages queryWithCursor fuel { request with cursor := some cursor }
        { aggregated with
          results := some (results ++ pageResults)
          totalCount := page.totalCount } t := by
  have hextend : extend aggregated page = .ok { aggregated with
      results := some (results ++ pageResults)
      totalCount := page.totalCount } := by
    rw [extend, hresults, hpage]
  simp only [queryPages, bind, hquery, hcursor, Effect.lift, hextend]

/-- **The loop ends** when it has received the last page, with what came before it. -/
theorem queryPages_of_serves {pages : List (CursorQueryResponse ρ)}
    {aggregated : CursorQueryResponse ρ} {results : List ρ}
    (h : Serves queryWithCursor s request pages) (hresults : aggregated.results = some results)
    (fuel : Nat) :
    ∃ t, queryPages queryWithCursor fuel request aggregated s =
      (.ok (if pages.length ≤ fuel then
        some { aggregated with
          results := some (results ++ allResults pages.dropLast)
          totalCount := lastTotal aggregated pages.dropLast }
        else none), t) := by
  -- induction on the pages served; the fuel goes down with each of them
  induction h generalizing fuel aggregated results with
  | last hquery hcursor =>
    cases fuel with
    | zero => exact ⟨_, rfl⟩
    | succ fuel =>
      rename_i t request page
      -- the last page is not added
      have haggregated : { aggregated with
          results := some (results ++ allResults [page].dropLast)
          totalCount := lastTotal aggregated [page].dropLast } = aggregated := by
        simp [← hresults, allResults, lastTotal]
      have hlength : [page].length ≤ fuel + 1 := Nat.le_add_left 1 fuel
      refine ⟨t, (queryPages_last hquery hcursor fuel).trans ?_⟩
      rw [if_pos hlength, haggregated]
  | next hquery hcursor hpage hrest ih =>
    rename_i page pages cursor pageResults
    cases fuel with
    | zero => exact ⟨_, rfl⟩
    | succ fuel =>
      have hnext : CursorQueryResponse.results { aggregated with
          results := some (results ++ pageResults)
          totalCount := page.totalCount } = some (results ++ pageResults) := rfl
      obtain ⟨t, ht⟩ := ih hnext fuel
      refine ⟨t, (queryPages_next hquery hcursor hresults hpage fuel).trans (ht.trans ?_)⟩
      -- all pages but the last one are added
      have hall : allResults (page :: pages).dropLast =
        pageResults ++ allResults pages.dropLast := by
        rw [List.dropLast_cons_of_ne_nil hrest.ne_nil, allResults, List.flatMap_cons, hpage]
        rfl
      have htotal : lastTotal aggregated (page :: pages).dropLast =
          lastTotal { aggregated with
            results := some (results ++ pageResults)
            totalCount := page.totalCount } pages.dropLast := by
        rw [List.dropLast_cons_of_ne_nil hrest.ne_nil]
        refine lastTotal_cons ?_ _
        rfl
      rw [hall, htotal, List.length_cons]
      simp only [Nat.add_le_add_iff_right, List.append_assoc]

/-- **Nothing is lost** exactly if the last page has no results, and the total count it comes
with is that of the page before it. -/
theorem query_cursorless_iff {created last : CursorQueryResponse ρ} {query : κ}
    {pages : List (CursorQueryResponse ρ)}
    (h : Serves queryWithCursor s (firstRequest query) (pages ++ [last])) :
    (∃ fuel aggregated t,
      queryCursorless queryWithCursor created query fuel s = (.ok (some aggregated), t) ∧
        aggregated.results = some (allResults (pages ++ [last])) ∧
        aggregated.totalCount = last.totalCount) ↔
      last.results.getD [] = [] ∧ last.totalCount = lastTotal created pages := by
  -- all pages but the last one are put together, whatever it holds
  have hends : ∀ fuel, ∃ t, queryCursorless queryWithCursor created query fuel s =
      (.ok (if pages.length + 1 ≤ fuel then
        some { created with
          results := some (allResults pages)
          totalCount := lastTotal created pages }
        else none), t) := by
    intro fuel
    have hcreated : CursorQueryResponse.results { created with results := some [] } =
        some ([] : List ρ) := rfl
    obtain ⟨t, ht⟩ := queryPages_of_serves h hcreated fuel
    have htotal : lastTotal { created with results := some ([] : List ρ) } pages =
        lastTotal created pages := by
      unfold lastTotal
      cases pages.getLast? <;> rfl
    refine ⟨t, ht.trans ?_⟩
    rw [List.dropLast_concat, htotal, List.length_append, List.length_singleton, List.nil_append]
  -- so the results are complete exactly if the last page has none
  have hresults : allResults pages = allResults (pages ++ [last]) ↔ last.results.getD [] = [] := by
    rw [allResults, allResults, List.flatMap_append, List.flatMap_singleton, eq_comm,
      List.append_right_eq_self]
  constructor
  · rintro ⟨fuel, aggregated, t, hrun, hall, htotal⟩
    obtain ⟨t', ht'⟩ := hends fuel
    have hout := (Prod.mk.inj (hrun.symm.trans ht')).1
    split at hout
    · cases hout
      exact ⟨hresults.mp (Option.some.inj hall), htotal.symm⟩
    · cases hout
  · rintro ⟨hspent, htotal⟩
    obtain ⟨t, ht⟩ := hends (pages.length + 1)
    rw [if_pos (Nat.le_refl _)] at ht
    exact ⟨_, _, t, ht, congrArg some (hresults.mpr hspent), htotal.symm⟩

end

/-! ## One page, and an empty one after it -/

/-- The service has one page with two results; `again` tells whether it gives a cursor with it,
which leads to an empty page. -/
def onePage (again : Bool) : SearchService Unit Unit Nat := fun request _ =>
  match request.cursor with
  | none =>
    (.ok { cursor := if again then some "next" else none, results := some [3, 5],
           totalCount := some 2 }, ())
  | some _ => (.ok { results := some [], totalCount := some 2 }, ())

/-- Before an empty last page, the results are complete. -/
theorem page_before_empty_kept :
    ∃ fuel aggregated t,
      queryCursorless (onePage true) {} () fuel () = (.ok (some aggregated), t) ∧
        aggregated.results = some [3, 5] ∧ aggregated.totalCount = some 2 := by
  have hserves : Serves (onePage true) () (firstRequest ())
      ([{ cursor := some "next", results := some [3, 5], totalCount := some 2 }] ++
        [{ results := some [], totalCount := some 2 }]) :=
    .next rfl rfl rfl (.last rfl rfl)
  exact (query_cursorless_iff hserves).mpr ⟨rfl, rfl⟩

/-- **The last page is lost**: of one page with two results, and no cursor, nothing comes back. -/
theorem only_page_lost :
    Serves (onePage false) () (firstRequest ()) [{ results := some [3, 5], totalCount := some 2 }] ∧
      ¬ ∃ fuel aggregated t,
        queryCursorless (onePage false) {} () fuel () = (.ok (some aggregated), t) ∧
          aggregated.results = some [3, 5] ∧ aggregated.totalCount = some 2 := by
  refine ⟨.last rfl rfl, ?_⟩
  rintro ⟨fuel, aggregated, t, hrun, hresults, -⟩
  cases fuel with
  | zero => cases hrun
  | succ fuel =>
    cases hrun
    cases hresults

end SearchWrapper

end WellboreDdms
