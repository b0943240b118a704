import Polymorph.Control.Loop
import Polymorph.Errors
import Polymorph.Host

/-!
# Reading a paginated HTTP source

`HttpJsonSourceConnector` requests one page after another and yields the records of each page. The
server is a function from the parameters of a request to the JSON of its response; the work meter,
with its deadline and its budgets, may raise at any request and at any record.
-/

set_option autoImplicit false

namespace Polymorph

open JsonText Loop

inductive PaginationMode where
  | none
  | page
  | offset
  | cursor
deriving DecidableEq

/-- `HttpPagination`, with what `__post_init__` requires. -/
structure HttpPagination where
  mode : PaginationMode := .none
  parameter : String := "page"
  start : Int := 1
  step : Int := 1
  nextPointer : Option String := none
  maxPages : Nat := 1000
  validParameter : parameter ≠ "" ∧ ∀ c ∈ parameter.toList, c ∉ ['\r', '\n', '&', '='] := by decide
  validStep : 0 < step := by decide
  validPages : 1 ≤ maxPages ∧ maxPages ≤ 100000 := by decide
  validPointer : mode = .cursor → nextPointer ≠ none ∧ nextPointer ≠ some "" := by decide

/-- The parts of `HttpSourceEndpoint` that requests after the first depend on; `query` is a
dictionary. -/
structure HttpSourceEndpoint where
  recordsPointer : String := ""
  query : List (String × String) := []
  pagination : HttpPagination

/-- The parameters of a request. -/
abbrev Params := List (String × String)

/-- A record of a page, an object. -/
abbrev PageRecord := List (String × Json)

/-- When the work meter or the transport raises: at a request, by its number, and at a record, by
the number of records before it. -/
structure SourceMeter where
  request : Nat → Option Exn
  record : Nat → Option Exn

namespace HttpJsonSourceConnector

/-! ## JSON pointers -/

/-- `text.replace(first + second, result)` for a pair of characters. -/
def replacePair (first second result : Char) : List Char → List Char
  | a :: b :: rest =>
      if a = first ∧ b = second then result :: replacePair first second result rest
      else a :: replacePair first second result (b :: rest)
  | text => text

/-- `raw.replace("~1", "/").replace("~0", "~")` -/
def pointerToken (raw : List Char) : String :=
  String.ofList (replacePair '~' '0' '~' (replacePair '~' '1' '/' raw))

/-- `items[index]`, where negative indices count from the end. -/
def listItem (items : List Json) (index : Int) : Option Json :=
  if 0 ≤ index then items[index.toNat]?
  else if 0 ≤ index + items.length then items[(index + items.length).toNat]?
  else none

/-- One token of a pointer. -/
def pointerStep (H : Host) (current : Json) (token : String) : Except Exn Json :=
  match current with
  | .obj members =>
      match dictGet token members with
      | none => .error (.connectorError "configured JSON pointer was not found")
      | some value => .ok value
  | .arr items =>
      match (H.intOfStr token).bind (listItem items) with
      | none => .error (.connectorError "configured JSON pointer contains an invalid list index")
      | some value => .ok value
  | _ => .error (.connectorError "configured JSON pointer traverses a scalar value")

/-- `_json_pointer` -/
def jsonPointer (H : Host) (payload : Json) (pointer : String) : Except Exn Json :=
  match pointer.toList with
  | [] => .ok payload
  | ['/'] => .ok payload
  | '/' :: rest => ((rest.splitOn '/').map pointerToken).foldlM (pointerStep H) payload
  | _ => .error (.valueError "JSON pointer must be empty or start with '/'")

/-! ## Pages -/

/-- `isinstance(item, Mapping)` -/
def asRecord : Json → Option PageRecord
  | .obj members => some members
  | _ => none

/-- `_records_from` -/
def recordsFrom (H : Host) (payload : Json) (pointer : String) : Except Exn (List PageRecord) := do
  let selected ← jsonPointer H payload pointer
  match selected with
  | .obj members => return [members]
  | .arr items =>
      match items.mapM asRecord with
      | some records => return records
      | none =>
          throw (.connectorError "configured records pointer does not select object records")
  | _ => throw (.connectorError "configured records pointer does not select object records")

/-- The next cursor: none for a null or empty value, `str(next_value)` for a scalar; a container is
not hashable, so that looking it up in `{None, ""}` raises. -/
def cursorOf (H : Host) : Json → Except Exn (Option String)
  | .null => .ok none
  | .str s => .ok (if s = "" then none else some s)
  | .arr _ => .error (.typeError "unhashable type: 'list'")
  | .obj _ => .error (.typeError "unhashable type: 'dict'")
  | value => .ok (some (H.str value))

/-- What follows a page of cursor pagination. -/
def nextCursor (H : Host) (pagination : HttpPagination) (payload : Json) :
    Except Exn (Option String) :=
  match pagination.nextPointer with
  | none => .error (.other "AssertionError")
  | some pointer => do cursorOf H (← jsonPointer H payload pointer)

/-- The variables of `_iter`; `requests` and `yielded` are what it has requested and yielded. -/
structure IterState where
  position : Int
  cursor : Option String := none
  emitted : Nat := 0
  seenCursors : List String := []
  requests : List Params := []
  yielded : List PageRecord := []

/-- What a consumer of `_iter` sees: the requests, the records, and how the iteration ended. -/
structure IterResult where
  requests : List Params
  yielded : List PageRecord
  outcome : Except Exn Unit

def IterState.ended (s : IterState) (outcome : Except Exn Unit) : IterResult where
  requests := s.requests
  yielded := s.yielded
  outcome := outcome

/-- The parameters of the next request. -/
def pageParams (endpoint : HttpSourceEndpoint) (s : IterState) : Params :=
  match endpoint.pagination.mode, s.cursor with
  | .page, _ | .offset, _ =>
      dictSet endpoint.pagination.parameter (toString s.position) endpoint.query
  | .cursor, some cursor => dictSet endpoint.pagination.parameter cursor endpoint.query
  | _, _ => endpoint.query

/-- The loop over the records of a page. -/
def emitRecords (meter : SourceMeter) (maxRecords : Option Nat) :
    List PageRecord → IterState → Turn IterResult IterState
  | [], s => .again s
  | record :: rest, s =>
      match meter.record s.emitted with
      | some e => .leave (s.ended (.error e))
      | none =>
          let s := { s with yielded := s.yielded ++ [record], emitted := s.emitted + 1 }
          if maxRecords.any (· ≤ s.emitted) then .leave (s.ended (.ok ()))
          else emitRecords meter maxRecords rest s

/-- What `_iter` does after the records of a page. -/
def advance (H : Host) (endpoint : HttpSourceEndpoint) (payload : Json) (s : IterState) :
    Turn IterResult IterState :=
  match endpoint.pagination.mode with
  | .none => .leave (s.ended (.ok ()))
  | .page | .offset => .again { s with position := s.position + endpoint.pagination.step }
  | .cursor =>
      match nextCursor H endpoint.pagination payload with
      | .error e => .leave (s.ended (.error e))
      | .ok none => .leave (s.ended (.ok ()))
      | .ok (some cursor) =>
          if cursor ∈ s.seenCursors then
            .leave ({ s with cursor := some cursor }.ended
              (.error (.protocolError "HTTP cursor pagination repeated a cursor")))
          else .again { s with cursor := some cursor, seenCursors := s.seenCursors ++ [cursor] }

/-- A turn of the loop over the pages. -/
def pageTurn (H : Host) (server : Params → Json) (meter : SourceMeter)
    (endpoint : HttpSourceEndpoint) (maxRecords : Option Nat) (s : IterState) :
    Turn IterResult IterState :=
  let params := pageParams endpoint s
  let number := s.requests.length
  let s := { s with requests := s.requests ++ [params] }
  match meter.request number with
  | some e => .leave (s.ended (.error e))
  | none =>
      let payload := server params
      match recordsFrom H payload endpoint.recordsPointer with
      | .error e => .leave (s.ended (.error e))
      | .ok [] => .leave (s.ended (.ok ()))
      | .ok records =>
          match emitRecords meter maxRecords records s with
          | .leave result => .leave result
          | .again s => advance H endpoint payload s

/-- The loop over the pages, which raises when it is not left. -/
def iterPages (turn : IterState → Turn IterResult IterState) : Nat → IterState → IterResult
  | 0, s => s.ended (.error (.protocolError "HTTP pagination reached configured page limit"))
  | pages + 1, s =>
      match turn s with
      | .leave result => result
      | .again s => iterPages turn pages s

/-- `_iter` -/
def iter (H : Host) (server : Params → Json) (meter : SourceMeter) (endpoint : HttpSourceEndpoint)
    (maxRecords : Option Nat) : IterResult :=
  iterPages (pageTurn H server meter endpoint maxRecords) endpoint.pagination.maxPages
    { position := endpoint.pagination.start }

/-- `iter_records` -/
def iterRecords (H : Host) (server : Params → Json) (meter : SourceMeter)
    (endpoint : HttpSourceEndpoint) : IterResult :=
  iter H server meter endpoint none

end HttpJsonSourceConnector

end Polymorph
