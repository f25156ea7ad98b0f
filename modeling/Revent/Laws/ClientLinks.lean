import Revent.Laws.Pages

/-!
# The links of clients

`get_clients_page` prints the id of a client into its link as it is, and an id may hold any
characters. A slash in it begins another segment, a question mark or a hash ends the path, and a
percent sign with two hexadecimal digits is decoded; any other id comes back as it was
(`leadToClients_iff`).
-/

namespace Revent

/-- The id that a URL hands to `get_client_by_id`. -/
def clientIdOf (url : String) : Option String := (clientSegment url).bind Url.decode

/-- **The link of a client leads to it**: the route takes it, with the client's id, and while the
client is connected its details are found there. -/
structure LeadsToClient (clientId : ClientId) : Prop where
  route : ∀ info, clientIdOf (ClientInPageDto.of (clientId, info)).link = some clientId.val
  finds : ∀ (connectedClients : HashMap ClientId ClientInfo) (info : ClientInfo)
    (queryHandlers : ClientId → List QueryId) (now : Instant),
    connectedClients[clientId]? = some info →
    getClient (ClientInPageDto.of (clientId, info)).link connectedClients queryHandlers now =
      some (.ok (.of clientId info (queryHandlers clientId) now))

/-- **The links of two clients lead to them**, and so not to the same client. -/
structure LeadToClients (clientId clientId' : ClientId) : Prop where
  first : LeadsToClient clientId
  second : LeadsToClient clientId'
  apart : clientId ≠ clientId' → ∀ info info',
    clientIdOf (ClientInPageDto.of (clientId, info)).link ≠
      clientIdOf (ClientInPageDto.of (clientId', info')).link

/-- An id without anything that means something in the path of a URL. -/
structure Plain (clientId : ClientId) : Prop where
  slash : '/' ∉ clientId.val.toList
  query : '?' ∉ clientId.val.toList
  fragment : '#' ∉ clientId.val.toList
  octet : ¬ Url.SpellsOctet clientId.val.toList

variable {clientId clientId' : ClientId} {info : ClientInfo} {segment : List Char}

/-- The links that a page holds are those of its clients. -/
theorem mem_content_of_getClientsPage {entries : List (ClientId × ClientInfo)}
    {offset limit : Nat} {page : Page ClientInPageDto} {dto : ClientInPageDto}
    (got : getClientsPage (.ok ⟨offset, limit⟩) entries = .ok page) (mem : dto ∈ page.content) :
    ∃ entry ∈ entries, dto = .of entry := by
  rw [eq_pageAt_of_getClientsPage got] at mem
  obtain ⟨entry, listed, rfl⟩ := List.mem_map.mp mem
  have sorted := List.mem_of_mem_drop (List.mem_of_mem_take listed)
  exact ⟨entry, (sortClients_perm entries).mem_iff.mp sorted, rfl⟩

/-- The path of a link. -/
theorem path_link : (Url.split (ClientInPageDto.of (clientId, info)).link.toList).path =
    "/api/clients/".toList ++ Url.pathPart clientId.val.toList := by
  have text : (ClientInPageDto.of (clientId, info)).link.toList =
      "http".toList ++ ':' :: '/' :: '/' :: ("localhost:10001".toList ++ '/' ::
        "api/clients/".toList) ++ clientId.val.toList := by
    simp [ClientInPageDto.of]
  rw [text]
  exact Url.path_split (by decide) (by decide) (by decide) (by decide)

/-- The route takes a link if what is left of the id in the path is one segment. -/
theorem clientSegment_link :
    clientSegment (ClientInPageDto.of (clientId, info)).link = some segment ↔
      Url.pathPart clientId.val.toList = segment ∧ '/' ∉ segment ∧ segment ≠ [] := by
  have segments (part : List Char) : Url.segments ("/api/clients/".toList ++ part) =
      [] :: "api".toList :: "clients".toList :: Url.segments part := by
    have text : "/api/clients/".toList ++ part =
        [] ++ '/' :: ("api".toList ++ '/' :: ("clients".toList ++ '/' :: part)) := by
      simp
    rw [text, Url.segments_cons (by decide), Url.segments_cons (by decide),
      Url.segments_cons (by decide)]
  unfold clientSegment
  rw [path_link, segments]
  cases parts : Url.segments (Url.pathPart clientId.val.toList) with
  | nil => exact absurd parts (List.splitOn_ne_nil _ _)
  | cons part more =>
    cases more with
    | nil =>
      obtain ⟨is, clean⟩ := Url.segments_eq_singleton_iff.mp parts
      rw [is] at clean ⊢
      constructor
      · intro taken
        obtain ⟨⟨-, -, filled⟩, same⟩ := Option.ite_none_right_eq_some.mp taken
        cases same
        exact ⟨rfl, clean, filled⟩
      · rintro ⟨rfl, -, filled⟩
        exact if_pos ⟨rfl, rfl, filled⟩
    | cons part' more =>
      refine iff_of_false nofun ?_
      rintro ⟨rfl, clean, -⟩
      rw [Url.segments_singleton clean] at parts
      cases parts

/-- **The link of a client leads to it** exactly where the id is plain. -/
theorem leadsToClient_iff : LeadsToClient clientId ↔ Plain clientId := by
  have cut := Url.pathPart_prefix clientId.val.toList
  have text : String.ofList clientId.val.toList = clientId.val := String.ofList_toList
  constructor
  · intro leads
    have route := leads.route ⟨0, 0, 0⟩
    rw [clientIdOf, Option.bind_eq_some_iff] at route
    obtain ⟨segment, taken, decoded⟩ := route
    obtain ⟨rfl, slash, -⟩ := clientSegment_link.mp taken
    have itself := decoded.trans (congrArg some text.symm)
    obtain ⟨whole, octet⟩ := (Url.decode_eq_iff_of_prefix cut).mp itself
    obtain ⟨fragment, query⟩ := Url.pathPart_eq_iff.mp whole
    rw [whole] at slash
    exact ⟨slash, query, fragment, octet⟩
  · rintro ⟨slash, query, fragment, octet⟩
    have whole := Url.pathPart_eq_iff.mpr ⟨fragment, query⟩
    have filled : clientId.val.toList ≠ [] := by
      intro empty
      have short := clientId.valid.1
      rw [← String.length_toList, empty] at short
      cases short
    have taken (info : ClientInfo) : clientSegment (ClientInPageDto.of (clientId, info)).link =
        some clientId.val.toList := clientSegment_link.mpr ⟨whole, slash, filled⟩
    have decoded : Url.decode clientId.val.toList = some clientId.val := by
      have same := (Url.decode_eq_iff_of_prefix (List.prefix_refl _)).mpr ⟨rfl, octet⟩
      rwa [text] at same
    refine ⟨fun info => ?_, fun connectedClients info queryHandlers now connected => ?_⟩
    · rw [clientIdOf, taken, Option.bind_some, decoded]
    · have valid : ClientId.new clientId.val = .ok clientId := ClientId.new_ok.mpr rfl
      simp only [getClient, taken, Option.map_some, decoded, ClientsHandler.getClientById, valid,
        connected]
      rfl

/-- **The links of two clients lead to them** exactly where both ids are plain. -/
theorem leadToClients_iff :
    LeadToClients clientId clientId' ↔ Plain clientId ∧ Plain clientId' := by
  constructor
  · intro leads
    exact ⟨leadsToClient_iff.mp leads.first, leadsToClient_iff.mp leads.second⟩
  · rintro ⟨plain, plain'⟩
    have first := leadsToClient_iff.mpr plain
    have second := leadsToClient_iff.mpr plain'
    refine ⟨first, second, fun differ info info' same => differ ?_⟩
    rw [first.route, second.route] at same
    exact ClientId.val_injective (Option.some.inj same)

/-- `a/b`. -/
def slashed : ClientId := ⟨"a/b", by decide⟩

/-- No route takes the link of `a/b`. -/
theorem not_leadToClients : ¬ ∀ clientId clientId', LeadToClients clientId clientId' := by
  intro claim
  have taken := (claim slashed slashed).first.route ⟨0, 0, 0⟩
  revert taken
  decide +kernel

end Revent
