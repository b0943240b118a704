import Polymorph.Connectors.HttpPagination
import Polymorph.StandardHost
import Mathlib.Data.Nat.Find

/-!
# Cursor pagination

A server leads from the first request along its next cursors to a last page. Reading loses nothing
when a run that ends without an exception has yielded the records of those pages and has stopped
at the last one. Ending on an empty page, whatever its next cursor, and not counting a cursor that
the static query gives among the cursors seen are the two ways to miss that.
-/

set_option autoImplicit false

namespace Polymorph

open JsonText Loop

namespace HttpJsonSourceConnector

section Pages

variable (H : Host) (server : Params → Json) (endpoint : HttpSourceEndpoint)

/-- The parameters of the request for a cursor; the first request has none. -/
def cursorParams (endpoint : HttpSourceEndpoint) : Option String → Params
  | none => endpoint.query
  | some cursor => dictSet endpoint.pagination.parameter cursor endpoint.query

/-- The records of the page at a cursor. -/
def recordsAt (cursor : Option String) : Except Exn (List PageRecord) :=
  recordsFrom H (server (cursorParams endpoint cursor)) endpoint.recordsPointer

/-- The next cursor of the page at a cursor. -/
def nextAt (cursor : Option String) : Except Exn (Option String) :=
  nextCursor H endpoint.pagination (server (cursorParams endpoint cursor))

/-- The pages from a cursor on, to a page whose next cursor is null or empty. -/
inductive Pages : Option String → List PageRecord → Prop
  | last {cursor : Option String} {page : List PageRecord} :
      recordsAt H server endpoint cursor = .ok page →
      nextAt H server endpoint cursor = .ok none → Pages cursor page
  | more {cursor : Option String} {next : String} {page rest : List PageRecord} :
      recordsAt H server endpoint cursor = .ok page →
      nextAt H server endpoint cursor = .ok (some next) →
      Pages (some next) rest → Pages cursor (page ++ rest)

/-- The cursor that a page leads to. -/
def follow (cursor : Option String) : Option (Option String) :=
  match recordsAt H server endpoint cursor, nextAt H server endpoint cursor with
  | .ok _, .ok (some next) => some (some next)
  | _, _ => none

/-- The cursor of a request, counted from the first one. -/
def cursorAt : Nat → Option (Option String)
  | 0 => some none
  | number + 1 => (cursorAt number).bind (follow H server endpoint)

/-- What reading promises of a run. -/
structure LosesNothing (result : IterResult) : Prop where
  complete : result.outcome = .ok () → Pages H server endpoint none result.yielded
  stopped : result.outcome = .ok () → ∃ params, result.requests.getLast? = some params ∧
    nextCursor H endpoint.pagination (server params) = .ok none
  once : (result.requests.map (dictGet endpoint.pagination.parameter)).Nodup
  bounded : result.requests.length ≤ endpoint.pagination.maxPages

/-- The page at a cursor leads on although it is empty, or the cursor is the one that the static
query has asked for. -/
def Misses (cursor : Option String) : Prop :=
  (recordsAt H server endpoint cursor = .ok [] ∧ nextAt H server endpoint cursor ≠ .ok none) ∨
    (cursor ≠ none ∧ dictGet endpoint.pagination.parameter endpoint.query = cursor)

end Pages

variable {H : Host} {server : Params → Json} {endpoint : HttpSourceEndpoint}
  {meter : SourceMeter} {maxRecords : Option Nat}

/-! ## Following cursors -/

theorem follow_eq_some {cursor next : Option String}
    (h : follow H server endpoint cursor = some next) :
    ∃ page d, recordsAt H server endpoint cursor = .ok page ∧
      nextAt H server endpoint cursor = .ok (some d) ∧ next = some d := by
  unfold follow at h
  split at h
  case h_1 page d hpage hnext => exact ⟨page, d, hpage, hnext, (Option.some.inj h).symm⟩
  case h_2 => cases h

theorem follow_of {cursor : Option String} {page : List PageRecord} {next : String}
    (hpage : recordsAt H server endpoint cursor = .ok page)
    (hnext : nextAt H server endpoint cursor = .ok (some next)) :
    follow H server endpoint cursor = some (some next) := by
  simp only [follow, hpage, hnext]

theorem cursorAt_succ {number : Nat} {cursor : Option String}
    (h : cursorAt H server endpoint number = some cursor) :
    cursorAt H server endpoint (number + 1) = follow H server endpoint cursor := by
  simp only [cursorAt, h, Option.bind_some]

/-- A cursor that comes back leads on as it did before. -/
theorem cursorAt_add {a b : Nat}
    (h : cursorAt H server endpoint a = cursorAt H server endpoint b) (more : Nat) :
    cursorAt H server endpoint (a + more) = cursorAt H server endpoint (b + more) := by
  induction more with
  | zero => exact h
  | succ more ih =>
      change (cursorAt H server endpoint (a + more)).bind _ =
        (cursorAt H server endpoint (b + more)).bind _
      rw [ih]

/-- The requests before a request were made for cursors. -/
theorem cursorAt_of_le {number before : Nat} {cursor : Option String} (hle : before ≤ number)
    (h : cursorAt H server endpoint number = some cursor) :
    ∃ earlier, cursorAt H server endpoint before = some earlier := by
  induction number generalizing cursor with
  | zero => exact ⟨cursor, by rwa [Nat.le_zero.mp hle]⟩
  | succ number ih =>
      obtain ⟨previous, hprevious, _⟩ := Option.bind_eq_some_iff.mp h
      cases Nat.of_le_succ hle with
      | inl hle => exact ih hle hprevious
      | inr heq => exact ⟨cursor, heq ▸ h⟩

/-! ## The loop over the records -/

theorem emitRecords_again {records : List PageRecord} {s s' : IterState}
    (h : emitRecords meter maxRecords records s = .again s') :
    s' = { s with yielded := s.yielded ++ records, emitted := s.emitted + records.length } := by
  induction records generalizing s with
  | nil =>
      cases h
      simp
  | cons record rest ih =>
      unfold emitRecords at h
      split at h
      · cases h
      · dsimp only at h
        split at h
        · cases h
        · have hs := ih h
          rw [hs]
          simp [Nat.add_assoc, Nat.add_comm 1]

/-- Reading without a limit on the records leaves the loop over a page only by raising. -/
theorem emitRecords_leave {records : List PageRecord} {s : IterState} {result : IterResult}
    (h : emitRecords meter none records s = .leave result) :
    result.requests = s.requests ∧ ∃ e, result.outcome = .error e := by
  induction records generalizing s with
  | nil => cases h
  | cons record rest ih =>
      unfold emitRecords at h
      split at h
      case h_1 e _ =>
        cases h
        exact ⟨rfl, e, rfl⟩
      case h_2 =>
      simp only [Option.any_none, Bool.false_eq_true, if_false] at h
      have hrest := ih h
      exact hrest

/-- The meter that never raises. -/
def unlimited : SourceMeter where
  request _ := none
  record _ := none

theorem emitRecords_unlimited (records : List PageRecord) (s : IterState) :
    emitRecords unlimited none records s =
      .again { s with yielded := s.yielded ++ records, emitted := s.emitted + records.length } := by
  induction records generalizing s with
  | nil => simp [emitRecords]
  | cons record rest ih =>
      simp only [emitRecords, unlimited, Option.any_none, Bool.false_eq_true, if_false]
      rw [show ({ request := fun _ => none, record := fun _ => none } : SourceMeter) = unlimited
        from rfl, ih]
      simp [Nat.add_assoc, Nat.add_comm 1]

/-! ## Where nothing is missed -/

/-- What holds before each request, of which there have been `number`. -/
structure Following (H : Host) (server : Params → Json) (endpoint : HttpSourceEndpoint)
    (number : Nat) (s : IterState) : Prop where
  cursor : cursorAt H server endpoint number = some s.cursor
  requests : s.requests.length = number
  pages : ∀ rest, Pages H server endpoint s.cursor rest →
    Pages H server endpoint none (s.yielded ++ rest)
  asked : s.requests ++ [cursorParams endpoint s.cursor] =
    endpoint.query :: s.seenCursors.map fun cursor => cursorParams endpoint (some cursor)
  seen : ∀ cursor ∈ s.seenCursors, ∃ before ≤ number,
    cursorAt H server endpoint before = some (some cursor)
  distinct : s.seenCursors.Nodup

theorem following_start (start : Int) :
    Following H server endpoint 0 { position := start } where
  cursor := rfl
  requests := rfl
  pages _ hrest := hrest
  asked := rfl
  seen _ hseen := nomatch hseen
  distinct := List.nodup_nil

/-- The cursors of the requests up to the next one are distinct when the static query gives none of
those that were followed. -/
theorem Following.once {number : Nat} {s : IterState}
    (hs : Following H server endpoint number s)
    (hnone : ∀ before cursor, before ≤ number → cursorAt H server endpoint before = some cursor →
      ¬Misses H server endpoint cursor) :
    ((s.requests ++ [cursorParams endpoint s.cursor]).map
      (dictGet endpoint.pagination.parameter)).Nodup := by
  have hgets : (s.seenCursors.map fun cursor => cursorParams endpoint (some cursor)).map
      (dictGet endpoint.pagination.parameter) = s.seenCursors.map some := by
    rw [List.map_map]
    exact List.map_congr_left fun cursor _ => dictGet_dictSet_self ..
  rw [hs.asked, List.map_cons, hgets, List.nodup_cons]
  refine ⟨fun hmem => ?_, hs.distinct.map (Option.some_injective _)⟩
  obtain ⟨cursor, hseen, hstatic⟩ := List.mem_map.mp hmem
  obtain ⟨before, hle, hbefore⟩ := hs.seen cursor hseen
  exact hnone before _ hle hbefore (.inr ⟨Option.some_ne_none _, hstatic.symm⟩)

/-! ## A turn of cursor pagination -/

section Cursor

variable (hmode : endpoint.pagination.mode = .cursor)
include hmode

theorem pageParams_cursor (s : IterState) :
    pageParams endpoint s = cursorParams endpoint s.cursor := by
  cases hc : s.cursor with
  | none => simp [pageParams, cursorParams, hmode, hc]
  | some cursor => simp [pageParams, cursorParams, hmode, hc]

/-- What a turn can do. -/
theorem pageTurn_cases {s : IterState} {turn : Turn IterResult IterState}
    (hturn : pageTurn H server meter endpoint none s = turn) :
    (∃ result e, turn = .leave result ∧ result.outcome = .error e ∧
      result.requests = s.requests ++ [cursorParams endpoint s.cursor]) ∨
    (∃ page, recordsAt H server endpoint s.cursor = .ok page ∧
      (page = [] ∨ nextAt H server endpoint s.cursor = .ok none) ∧
      turn = .leave
        { requests := s.requests ++ [cursorParams endpoint s.cursor]
          yielded := s.yielded ++ page
          outcome := .ok () }) ∨
    (∃ page next, recordsAt H server endpoint s.cursor = .ok page ∧ page ≠ [] ∧
      nextAt H server endpoint s.cursor = .ok (some next) ∧ next ∉ s.seenCursors ∧
      turn = .again
        { s with
          cursor := some next
          emitted := s.emitted + page.length
          seenCursors := s.seenCursors ++ [next]
          requests := s.requests ++ [cursorParams endpoint s.cursor]
          yielded := s.yielded ++ page }) := by
  subst hturn
  unfold pageTurn
  simp only [pageParams_cursor hmode]
  split
  case h_1 e _ => exact .inl ⟨_, e, rfl, rfl, rfl⟩
  case h_2 =>
    split
    case h_1 e _ => exact .inl ⟨_, e, rfl, rfl, rfl⟩
    case h_2 hpage => exact .inr (.inl ⟨[], hpage, .inl rfl, by simp [IterState.ended]⟩)
    case h_3 page hempty hpage =>
      have hne : page ≠ [] := hempty
      split
      case h_1 result hleave =>
        obtain ⟨hrequests, e, herror⟩ := emitRecords_leave hleave
        exact .inl ⟨result, e, rfl, herror, hrequests⟩
      case h_2 s' hagain =>
        rw [emitRecords_again hagain]
        unfold advance
        simp only [hmode]
        split
        case h_1 e _ => exact .inl ⟨_, e, rfl, rfl, rfl⟩
        case h_2 hlast => exact .inr (.inl ⟨page, hpage, .inr hlast, rfl⟩)
        case h_3 next hnext =>
          split
          case isTrue hseen => exact .inl ⟨_, _, rfl, rfl, rfl⟩
          case isFalse hseen => exact .inr (.inr ⟨page, next, hpage, hne, hnext, hseen, rfl⟩)

/-- A turn that goes on keeps what holds before a request. -/
theorem Following.step {number : Nat} {s s' : IterState}
    (hs : Following H server endpoint number s)
    (hturn : pageTurn H server meter endpoint none s = .again s') :
    Following H server endpoint (number + 1) s' := by
  obtain ⟨_, _, h, _⟩ | ⟨_, _, _, h⟩ | ⟨page, next, hpage, _, hnext, hnew, h⟩ :=
    pageTurn_cases hmode hturn
  · cases h
  · cases h
  · cases h
    have hcursor : cursorAt H server endpoint (number + 1) = some (some next) :=
      (cursorAt_succ hs.cursor).trans (follow_of hpage hnext)
    exact
      { cursor := hcursor
        requests := by simp [hs.requests]
        pages := fun rest hrest => by
          rw [List.append_assoc]
          exact hs.pages _ (.more hpage hnext hrest)
        asked := by simp [hs.asked]
        seen := fun cursor hmem => by
          cases List.mem_append.mp hmem with
          | inl hmem =>
              obtain ⟨before, hle, hbefore⟩ := hs.seen cursor hmem
              exact ⟨before, Nat.le_succ_of_le hle, hbefore⟩
          | inr hmem => exact ⟨number + 1, Nat.le_refl _, by rw [List.mem_singleton.mp hmem, hcursor]⟩
        distinct := List.nodup_append.mpr ⟨hs.distinct, List.nodup_singleton _, fun a ha b hb hab =>
          hnew (List.mem_singleton.mp hb ▸ hab ▸ ha)⟩ }

/-- A turn that leaves the loop loses nothing where nothing is missed. -/
theorem Following.leave {number : Nat} {s : IterState} {result : IterResult}
    (hs : Following H server endpoint number s) (hlt : number < endpoint.pagination.maxPages)
    (hnone : ∀ before cursor, before ≤ number → cursorAt H server endpoint before = some cursor →
      ¬Misses H server endpoint cursor)
    (hturn : pageTurn H server meter endpoint none s = .leave result) :
    LosesNothing H server endpoint result := by
  have honce := hs.once hnone
  have hlength : (s.requests ++ [cursorParams endpoint s.cursor]).length ≤
      endpoint.pagination.maxPages := by
    simpa [hs.requests] using hlt
  obtain ⟨_, e, h, herror, hrequests⟩ | ⟨page, hpage, hend, h⟩ | ⟨_, _, _, _, _, _, h⟩ :=
    pageTurn_cases hmode hturn
  · cases h
    refine ⟨fun hok => ?_, fun hok => ?_, hrequests ▸ honce, hrequests ▸ hlength⟩
    · cases herror.symm.trans hok
    · cases herror.symm.trans hok
  · have hlast : nextAt H server endpoint s.cursor = .ok none := by
      cases hend with
      | inl hempty =>
          by_contra hnext
          exact hnone number _ (Nat.le_refl _) hs.cursor (.inl ⟨hempty ▸ hpage, hnext⟩)
      | inr hlast => exact hlast
    cases h
    exact
      { complete := fun _ => hs.pages _ (.last hpage hlast)
        stopped := fun _ => ⟨_, List.getLast?_concat .., hlast⟩
        once := honce
        bounded := hlength }
  · cases h

/-- Reading on from a request loses nothing where nothing is missed. -/
theorem Following.iterPages {number pages : Nat} {s : IterState}
    (hs : Following H server endpoint number s)
    (hpages : number + pages = endpoint.pagination.maxPages)
    (hnone : ∀ before cursor, before < endpoint.pagination.maxPages →
      cursorAt H server endpoint before = some cursor → ¬Misses H server endpoint cursor)
    (honce : (s.requests.map (dictGet endpoint.pagination.parameter)).Nodup) :
    LosesNothing H server endpoint
      (iterPages (pageTurn H server meter endpoint none) pages s) := by
  induction pages generalizing number s with
  | zero =>
      refine ⟨fun h => ?_, fun h => ?_, honce, ?_⟩
      · cases h
      · cases h
      · exact Nat.le_of_eq (hs.requests.trans hpages)
  | succ pages ih =>
      have hlt : number < endpoint.pagination.maxPages := by omega
      have hbefore : ∀ before cursor, before ≤ number →
          cursorAt H server endpoint before = some cursor → ¬Misses H server endpoint cursor :=
        fun before cursor hle => hnone before cursor (Nat.lt_of_le_of_lt hle hlt)
      cases hturn : pageTurn H server meter endpoint none s with
      | leave result =>
          simp only [HttpJsonSourceConnector.iterPages, hturn]
          exact hs.leave hmode hlt hbefore hturn
      | again s' =>
          simp only [HttpJsonSourceConnector.iterPages, hturn]
          refine ih (hs.step hmode hturn) (by omega) ?_
          have hrequests : s'.requests = s.requests ++ [cursorParams endpoint s.cursor] := by
            obtain ⟨_, _, h, _⟩ | ⟨_, _, _, h⟩ | ⟨_, _, _, _, _, _, h⟩ :=
              pageTurn_cases hmode hturn
            · cases h
            · cases h
            · cases h
              rfl
          rw [hrequests]
          exact hs.once hbefore

/-! ## Where something is missed -/

/-- Every request stays among the requests. -/
theorem pageTurn_requests {s : IterState} :
    match pageTurn H server meter endpoint none s with
    | .leave result => result.requests = s.requests ++ [cursorParams endpoint s.cursor]
    | .again s' => s'.requests = s.requests ++ [cursorParams endpoint s.cursor] := by
  obtain ⟨result, e, h, _, hrequests⟩ | ⟨_, _, _, h⟩ | ⟨_, _, _, _, _, _, h⟩ :=
    @pageTurn_cases H server endpoint meter hmode s _ rfl
  · rw [h]
    exact hrequests
  · rw [h]
  · rw [h]

theorem iterPages_requests (pages : Nat) (s : IterState) :
    s.requests <+: (iterPages (pageTurn H server meter endpoint none) pages s).requests ∧
      (0 < pages → s.requests ++ [cursorParams endpoint s.cursor] <+:
        (iterPages (pageTurn H server meter endpoint none) pages s).requests) := by
  induction pages generalizing s with
  | zero => exact ⟨List.prefix_rfl, fun h => absurd h (Nat.lt_irrefl 0)⟩
  | succ pages ih =>
      have hrequests := @pageTurn_requests H server endpoint meter hmode s
      have hlonger : s.requests ++ [cursorParams endpoint s.cursor] <+:
          (iterPages (pageTurn H server meter endpoint none) (pages + 1) s).requests := by
        cases hturn : pageTurn H server meter endpoint none s with
        | leave result =>
            rw [hturn] at hrequests
            simp only [iterPages, hturn]
            rw [hrequests]
        | again s' =>
            rw [hturn] at hrequests
            simp only [iterPages, hturn]
            rw [← hrequests]
            exact (ih s').1
      exact ⟨(List.prefix_append ..).trans hlonger, fun _ => hlonger⟩

/-- A page with records and a new cursor, when nothing raises. -/
theorem pageTurn_unlimited {s : IterState} {page : List PageRecord} {next : String}
    (hpage : recordsAt H server endpoint s.cursor = .ok page) (hne : page ≠ [])
    (hnext : nextAt H server endpoint s.cursor = .ok (some next)) (hnew : next ∉ s.seenCursors) :
    ∃ s', pageTurn H server unlimited endpoint none s = .again s' := by
  unfold recordsAt at hpage
  unfold nextAt at hnext
  obtain ⟨record, rest, rfl⟩ := List.exists_cons_of_ne_nil hne
  simp only [pageTurn, pageParams_cursor hmode, unlimited, hpage]
  rw [show ({ request := fun _ => none, record := fun _ => none } : SourceMeter) = unlimited
    from rfl, emitRecords_unlimited]
  simp only [advance, hmode, hnext, hnew, if_false]
  exact ⟨_, rfl⟩

/-- Before the first request that misses something, the loop goes on. -/
theorem reaches_miss {number : Nat} {cursor : Option String}
    (hcursor : cursorAt H server endpoint number = some cursor)
    (hmiss : Misses H server endpoint cursor)
    (hfirst : ∀ before < number, ∀ earlier, cursorAt H server endpoint before = some earlier →
      ¬Misses H server endpoint earlier) (before : Nat) (hle : before ≤ number) :
    ∃ s, Following H server endpoint before s ∧ ∀ pages,
      iterPages (pageTurn H server unlimited endpoint none) (pages + before)
        { position := endpoint.pagination.start } =
      iterPages (pageTurn H server unlimited endpoint none) pages s := by
  induction before with
  | zero => exact ⟨_, following_start _, fun _ => rfl⟩
  | succ before ih =>
      obtain ⟨s, hs, hsame⟩ := ih (Nat.le_of_succ_le hle)
      obtain ⟨later, hlater⟩ := cursorAt_of_le hle hcursor
      obtain ⟨page, next, hpage, hnext, rfl⟩ :=
        follow_eq_some ((cursorAt_succ hs.cursor).symm.trans hlater)
      have hne : page ≠ [] := by
        rintro rfl
        exact hfirst before hle _ hs.cursor (.inl ⟨hpage, by simp [hnext]⟩)
      -- a cursor that comes back leads to the miss in fewer requests
      have hnew : next ∉ s.seenCursors := by
        intro hseen
        obtain ⟨earlier, hearlier, hsome⟩ := hs.seen next hseen
        have hagain := cursorAt_add (hsome.trans hlater.symm) (number - (before + 1))
        rw [Nat.add_sub_cancel' hle, hcursor] at hagain
        exact hfirst _ (by omega) _ hagain hmiss
      obtain ⟨s', hturn⟩ := pageTurn_unlimited hmode hpage hne hnext hnew
      refine ⟨s', hs.step hmode hturn, fun pages => ?_⟩
      rw [← Nat.succ_add_eq_add_succ, hsame (pages + 1), iterPages, hturn]

/-- A run that nothing interrupts loses something where something is missed. -/
theorem not_losesNothing {number : Nat} {cursor : Option String}
    (hlt : number < endpoint.pagination.maxPages)
    (hcursor : cursorAt H server endpoint number = some cursor)
    (hmiss : Misses H server endpoint cursor)
    (hfirst : ∀ before < number, ∀ earlier, cursorAt H server endpoint before = some earlier →
      ¬Misses H server endpoint earlier) :
    ¬LosesNothing H server endpoint (iterRecords H server unlimited endpoint) := by
  intro hrun
  obtain ⟨s, hs, hsame⟩ := reaches_miss hmode hcursor hmiss hfirst number (Nat.le_refl _)
  have hs_cursor : s.cursor = cursor := Option.some.inj (hs.cursor.symm.trans hcursor)
  obtain ⟨pages, hpages⟩ := Nat.exists_eq_add_of_lt hlt
  have hresult : iterRecords H server unlimited endpoint =
      iterPages (pageTurn H server unlimited endpoint none) (pages + 1) s := by
    rw [← hsame, iterRecords, iter]
    congr 1
    omega
  rw [hresult] at hrun
  cases hmiss with
  | inl hempty =>
      obtain ⟨hpage, hnext⟩ := hempty
      have hleave : pageTurn H server unlimited endpoint none s = .leave
          ({ s with requests := s.requests ++ [cursorParams endpoint cursor] }.ended (.ok ())) := by
        unfold recordsAt at hpage
        simp only [pageTurn, pageParams_cursor hmode, hs_cursor, unlimited, hpage]
      simp only [iterPages, hleave] at hrun
      obtain ⟨params, hlast, hstop⟩ := hrun.stopped rfl
      rw [IterState.ended, List.getLast?_concat] at hlast
      cases hlast
      exact hnext hstop
  | inr hstatic =>
      obtain ⟨hsome, hstatic⟩ := hstatic
      obtain ⟨value, rfl⟩ := Option.ne_none_iff_exists'.mp hsome
      have hlonger :=
        (@iterPages_requests H server endpoint unlimited hmode (pages + 1) s).2 (Nat.succ_pos _)
      have honce := (hlonger.map (dictGet endpoint.pagination.parameter)).sublist.nodup hrun.once
      have hasked := hs.asked
      cases hrequests : s.requests with
      | nil =>
          have hzero := hs.requests
          rw [hrequests] at hzero
          subst hzero
          cases hcursor
      | cons first rest =>
          rw [hrequests, List.cons_append] at hasked
          obtain ⟨hfirstRequest, _⟩ := List.cons.inj hasked
          rw [hrequests, hs_cursor, List.cons_append, List.map_cons, List.nodup_cons] at honce
          refine honce.1 ?_
          rw [hfirstRequest, hstatic, List.map_append]
          exact List.mem_append_right _ (by simp [cursorParams])

/-- Cursor pagination loses nothing, in any run, exactly when no cursor that the pages lead to
within the page limit has an empty page that leads on or is the one the static query asks for. -/
theorem iterRecords_losesNothing_iff :
    (∀ meter, LosesNothing H server endpoint (iterRecords H server meter endpoint)) ↔
      ∀ number cursor, number < endpoint.pagination.maxPages →
        cursorAt H server endpoint number = some cursor → ¬Misses H server endpoint cursor := by
  constructor
  · intro hruns
    by_contra hmisses
    push Not at hmisses
    classical
    let hits : Nat → Prop := fun number => ∃ cursor, number < endpoint.pagination.maxPages ∧
      cursorAt H server endpoint number = some cursor ∧ Misses H server endpoint cursor
    have hhits : ∃ number, hits number := hmisses
    obtain ⟨cursor, hlt, hcursor, hmiss⟩ := Nat.find_spec hhits
    refine not_losesNothing hmode hlt hcursor hmiss (fun before hbefore earlier hearlier hm => ?_)
      (hruns unlimited)
    exact Nat.find_min hhits hbefore ⟨earlier, Nat.lt_trans hbefore hlt, hearlier, hm⟩
  · intro hnone meter
    exact (following_start endpoint.pagination.start).iterPages hmode (Nat.zero_add _) hnone
      List.nodup_nil

end Cursor

/-! ## A page without records before the last one -/

/-- The records under `/data`, the next cursor under `/next`. -/
def dataEndpoint : HttpSourceEndpoint where
  recordsPointer := "/data"
  pagination :=
    { mode := .cursor
      parameter := "cursor"
      nextPointer := some "/next"
      validParameter := by simp }

def orderPage (ids : List Int) (next : Json) : Json :=
  .obj [("data", .arr (ids.map fun id => .obj [("id", .int id)])), ("next", next)]

/-- Two orders with a page between them that has none. -/
def sparseServer (params : Params) : Json :=
  match dictGet "cursor" params with
  | none => orderPage [1] (.str "b")
  | some cursor => if cursor = "b" then orderPage [] (.str "c") else orderPage [2] .null

/-- Two orders on two pages. -/
def denseServer (params : Params) : Json :=
  match dictGet "cursor" params with
  | none => orderPage [1] (.str "b")
  | some _ => orderPage [2] .null

theorem iterRecords_losesNothing_iff_dense :
    LosesNothing standardHost denseServer dataEndpoint
      (iterRecords standardHost denseServer unlimited dataEndpoint) := by
  refine (@iterRecords_losesNothing_iff standardHost denseServer dataEndpoint rfl).mpr
    (fun number cursor _ hcursor hmiss => ?_) unlimited
  have hpage : ∀ cursor, recordsAt standardHost denseServer dataEndpoint cursor ≠ .ok [] := by
    rintro (_ | cursor)
    · exact (nomatch ·)
    · exact (nomatch ·)
  cases hmiss with
  | inl hempty => exact hpage cursor hempty.1
  | inr hstatic => exact hstatic.1 hstatic.2.symm

/-- The run ends as if complete after the first order. -/
theorem iterRecords_sparse :
    (iterRecords standardHost sparseServer unlimited dataEndpoint).outcome = .ok () ∧
      (iterRecords standardHost sparseServer unlimited dataEndpoint).yielded = [[("id", .int 1)]] ∧
      Pages standardHost sparseServer dataEndpoint none [[("id", .int 1)], [("id", .int 2)]] ∧
      ¬LosesNothing standardHost sparseServer dataEndpoint
        (iterRecords standardHost sparseServer unlimited dataEndpoint) := by
  have hlast : Pages standardHost sparseServer dataEndpoint (some "c") [[("id", .int 2)]] :=
    .last rfl rfl
  have hmiddle : Pages standardHost sparseServer dataEndpoint (some "b") ([] ++ [[("id", .int 2)]]) :=
    .more rfl rfl hlast
  have hfirst : recordsAt standardHost sparseServer dataEndpoint none = .ok [[("id", .int 1)]] := rfl
  refine ⟨rfl, rfl, .more hfirst rfl hmiddle, fun hrun => ?_⟩
  obtain ⟨params, hparams, hstop⟩ := hrun.stopped rfl
  have hb : params = [("cursor", "b")] := by
    cases hparams
    rfl
  rw [hb] at hstop
  cases hstop

end HttpJsonSourceConnector

end Polymorph
