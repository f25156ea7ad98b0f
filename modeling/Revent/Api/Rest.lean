import Revent.Domain.Pages
import Revent.Url.Path

/-!
# The REST pages of clients

`api/rest/mod.rs`, `api/rest/errors.rs` and the handlers of `api/rest/clients_handler.rs`. How
`axum` and `serde` read the query string of a request is their own: `ReadQuery` is what is used of
it. A parameter in a route's path takes one segment, which is not empty and is percent-decoded.
Request bodies are not read, and the layer that sanitizes them is left out.
-/

namespace Revent

/-! ## Errors -/

/-- `ErrorDetail`. -/
structure ErrorDetail where
  reason : String
  message : String
  locationType : String
  deriving DecidableEq

/-- `ErrorResponse`. -/
structure ErrorResponse where
  code : Nat
  message : String
  errors : List ErrorDetail
  deriving DecidableEq

/-- `ErrorResponse::validation_error`. -/
def ErrorResponse.validationError (message : String) (errors : List ErrorDetail) :
    ErrorResponse :=
  ⟨400, message, errors⟩

/-- `ErrorResponse::not_found`. -/
def ErrorResponse.notFound (message : String) (errors : List ErrorDetail) : ErrorResponse :=
  ⟨404, message, errors⟩

/-- Why a request is not answered with a page: an error is returned, or its task panics. -/
inductive RestFailure where
  | error (err : ErrorResponse)
  | panic (panic : Panic)
  deriving DecidableEq

/-- A result of which only the panics fail. -/
def orPanics {α : Type} : Except Panic α → Except RestFailure α
  | .ok a => .ok a
  | .error panic => .error (.panic panic)

/-! ## Pages -/

/-- `Pagination`. -/
structure Pagination where
  offset : Nat
  limit : Nat
  deriving DecidableEq

/-- `default_offset`. -/
def defaultOffset : Nat := 0

/-- `default_limit`. -/
def defaultLimit : Nat := 20

/-- `Page<T>`. -/
structure Page (T : Type) where
  content : List T
  offset : Nat
  limit : Nat
  size : Nat
  totalElements : Nat
  totalPages : Nat
  next : Option String
  prev : Option String

/-- `format!("{}?offset={}&limit={}", base_path, offset, limit)`. -/
def pageLink (basePath : String) (offset limit : Nat) : String :=
  basePath ++ "?offset=" ++ toString offset ++ "&limit=" ++ toString limit

namespace Page

variable {T : Type}

/-- `Page::new`. -/
def new (content : List T) (offset limit totalElements totalPages : Nat) : Page T :=
  ⟨content, offset, limit, content.length, totalElements, totalPages, none, none⟩

/-- The link to the page before, if this is not the first one. -/
def withPrev (page : Page T) (basePath : String) : Page T :=
  if page.offset > 0 then
    { page with prev := some (pageLink basePath (page.offset - page.limit) page.limit) }
  else page

/-- `Page::with_pagination_links`. -/
def withPaginationLinks (page : Page T) (basePath : String) : Except Panic (Page T) := do
  let page := page.withPrev basePath
  let nextOffset ← usizeAdd page.offset page.limit
  if nextOffset < page.totalElements then
    return { page with next := some (pageLink basePath nextOffset page.limit) }
  else return page

/-- The links of a page whose end is a `usize`. -/
theorem withPaginationLinks_eq {page : Page T} {basePath : String}
    (fits : page.offset + page.limit < 2 ^ 64) :
    page.withPaginationLinks basePath = .ok { page with
      next := if page.offset + page.limit < page.totalElements then
        some (pageLink basePath (page.offset + page.limit) page.limit) else page.next
      prev := if page.offset > 0 then
        some (pageLink basePath (page.offset - page.limit) page.limit) else page.prev } := by
  have stop : usizeAdd page.offset page.limit = .ok (page.offset + page.limit) := if_pos fits
  by_cases first : page.offset > 0
  · simp only [withPaginationLinks, withPrev, if_pos first, stop, bind, Except.bind, pure,
      Except.pure]
    split <;> rfl
  · simp only [withPaginationLinks, withPrev, if_neg first, stop, bind, Except.bind, pure,
      Except.pure]
    split <;> rfl

end Page

/-! ## The handler -/

/-- `ClientInPageDto`. -/
structure ClientInPageDto where
  id : String
  since : SystemTime
  link : String
  deriving DecidableEq

/-- `ClientInPageDto` of a client. -/
def ClientInPageDto.of (entry : ClientId × ClientInfo) : ClientInPageDto :=
  ⟨entry.1.val, entry.2.since, "http://localhost:10001/api/clients/" ++ entry.1.val⟩

/-- `MAX_OFFSET`. -/
def maxOffset : Nat := 100000

/-- `MAX_LIMIT`. -/
def maxLimit : Nat := 100

/-- The path of the links. -/
def clientsPath : String := "http://localhost:10001/api/clients"

/-- `usize::div_ceil`. -/
def divCeil (a b : Nat) : Nat := if a % b > 0 then a / b + 1 else a / b

/-- The checks of the bounds in `get_clients_page`. -/
def Pagination.errors (pagination : Pagination) : List ErrorDetail :=
  (if pagination.offset > maxOffset then
    [⟨"invalidParameters", "Failed to deserialize query string: offset must be <= " ++
      toString maxOffset, "query"⟩]
  else []) ++
  (if pagination.limit = 0 ∨ pagination.limit > maxLimit then
    [⟨"invalidParameters", "Failed to deserialize query string: limit must be between 1 and " ++
      toString maxLimit, "query"⟩]
  else [])

/-- `get_clients_page`, of the clients in the order they are iterated in. -/
def getClientsPage (paginationResult : Except String Pagination)
    (connectedClients : List (ClientId × ClientInfo)) :
    Except RestFailure (Page ClientInPageDto) :=
  match paginationResult with
  | .error err =>
    .error (.error (.validationError "Invalid parameters" [⟨"invalidParameters", err, "query"⟩]))
  | .ok pagination =>
    if pagination.errors ≠ [] then
      .error (.error (.validationError "Invalid parameters" pagination.errors))
    else do
      let clientsPage ← orPanics
        (getConnectedClients connectedClients ⟨pagination.offset, pagination.limit⟩)
      let clients := (clientsPage.items.flatMap (·.toList)).map ClientInPageDto.of
      let totalElements := clientsPage.totalCount
      let totalPages := if totalElements = 0 then 0 else divCeil totalElements pagination.limit
      orPanics ((Page.new clients pagination.offset pagination.limit totalElements
        totalPages).withPaginationLinks clientsPath)

/-- `ClientDto`. -/
structure ClientDto where
  id : String
  since : SystemTime
  lastSeen : Duration
  queryHandlers : List String
  deriving DecidableEq

/-- `ClientDto` of a connected client. -/
def ClientDto.of (clientId : ClientId) (client : ClientInfo) (queryHandlers : List QueryId)
    (now : Instant) : ClientDto :=
  ⟨clientId.val, client.since, now - client.lastSeen, queryHandlers.map (·.val)⟩

/-- `get_client_by_id`, with the clients its first read of the state finds and the queries its
second one answers. -/
def ClientsHandler.getClientById (clientId : String)
    (connectedClients : HashMap ClientId ClientInfo) (queryHandlers : ClientId → List QueryId)
    (now : Instant) : Except ErrorResponse ClientDto :=
  match ClientId.new clientId with
  | .error err =>
    .error (.validationError "Invalid client id" [⟨"invalid parameter", err.reason, "path"⟩])
  | .ok clientId =>
    match connectedClients[clientId]? with
    | none =>
      .error (.notFound ("Client with id " ++ clientId.val ++ " not found")
        [⟨"notFound", "Client with id " ++ clientId.val ++ " not found", "path"⟩])
    | some client => .ok (.of clientId client (queryHandlers clientId) now)

/-! ## The routes -/

/-- What is used of `Query` on a query string: the values of `offset` and `limit`, where they are
given, or the text of the rejection. -/
abbrev ReadQuery := String → Except String (Option Nat × Option Nat)

/-- `Query<Pagination>`. -/
def Pagination.ofQuery (read : ReadQuery) (query : String) : Except String Pagination :=
  (read query).map fun fields => ⟨fields.1.getD defaultOffset, fields.2.getD defaultLimit⟩

/-- A `GET` of a URL of this server, if the route `/api/clients` takes it. -/
def getClients (read : ReadQuery) (url : String)
    (connectedClients : List (ClientId × ClientInfo)) :
    Option (Except RestFailure (Page ClientInPageDto)) :=
  let parts := Url.split url.toList
  if parts.path = "/api/clients".toList then
    let query := String.ofList (parts.query.getD [])
    some (getClientsPage (Pagination.ofQuery read query) connectedClients)
  else none

/-- The segment that the route `/api/clients/{client_id}` takes of a URL of this server. -/
def clientSegment (url : String) : Option (List Char) :=
  match Url.segments (Url.split url.toList).path with
  | [[], api, clients, clientId] =>
    if api = "api".toList ∧ clients = "clients".toList ∧ clientId ≠ [] then some clientId else none
  | _ => none

/-- Why a client is not answered: the segment is no UTF-8 once it is decoded, or an error is
returned. -/
inductive PathFailure where
  | invalidUtf8
  | error (err : ErrorResponse)
  deriving DecidableEq

/-- A `GET` of a URL of this server, if the route `/api/clients/{client_id}` takes it. -/
def getClient (url : String) (connectedClients : HashMap ClientId ClientInfo)
    (queryHandlers : ClientId → List QueryId) (now : Instant) :
    Option (Except PathFailure ClientDto) :=
  (clientSegment url).map fun segment =>
    match Url.decode segment with
    | none => .error .invalidUtf8
    | some clientId =>
      (ClientsHandler.getClientById clientId connectedClients queryHandlers now).mapError .error

end Revent
