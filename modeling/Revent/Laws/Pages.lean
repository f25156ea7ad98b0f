import Revent.Api.Rest
import Revent.Runtime.System

/-!
# Walking the pages

`get_clients_page` cuts a window out of the clients sorted by id and links it to the next one, and
the offset of a link is checked as any other: it may not be above `MAX_OFFSET`. The links are made
without regard to that bound. So a walk along the next links lists every client if the last page
begins within the bound, and runs into a link that is refused if it does not (`listsAll_iff`).
-/

namespace Revent

/-- What `axum` and `serde` document of `Query<Pagination>`: decimal values that fit a `usize` are
read as what they are. -/
def ReadsLinks (read : ReadQuery) : Prop :=
  ∀ offset limit : Nat, offset < 2 ^ 64 → limit < 2 ^ 64 →
    read ("offset=" ++ toString offset ++ "&limit=" ++ toString limit) =
      .ok (some offset, some limit)

/-- A walk along the next links, from a URL to a page without one. `visit` says how the clients
are iterated at each visit. -/
inductive Walk (read : ReadQuery) (visit : Nat → List (ClientId × ClientInfo)) :
    Nat → String → List (Page ClientInPageDto) → Prop where
  | last {k : Nat} {url : String} {page : Page ClientInPageDto}
      (got : getClients read url (visit k) = some (.ok page)) (ends : page.next = none) :
    Walk read visit k url [page]
  | next {k : Nat} {url link : String} {page : Page ClientInPageDto}
      {pages : List (Page ClientInPageDto)}
      (got : getClients read url (visit k) = some (.ok page)) (follows : page.next = some link)
      (rest : Walk read visit (k + 1) link pages) : Walk read visit k url (page :: pages)

/-- **The walk lists every client**: it comes to an end, and its pages hold each client once, in
the order of the ids, and are as many as they say. -/
structure ListsAll (read : ReadQuery) (clients : HashMap ClientId ClientInfo)
    (visit : Nat → List (ClientId × ClientInfo)) (limit : Nat)
    (pages : List (Page ClientInPageDto)) : Prop where
  walk : Walk read visit 0 (pageLink clientsPath 0 limit) pages
  ascending : ((pages.flatMap (·.content)).map (·.id)).Pairwise (· < ·)
  mem : ∀ dto, dto ∈ pages.flatMap (·.content) ↔
    ∃ clientId info, clients[clientId]? = some info ∧ dto = .of (clientId, info)
  count : ∀ page ∈ pages, pages.length = max page.totalPages 1

/-- The offset of the last page. -/
def lastOffset (total limit : Nat) : Nat := (total - 1) / limit * limit

/-! ## One page -/

/-- The page at an offset, of the sorted clients. -/
def pageAt (clients : List (ClientId × ClientInfo)) (offset limit : Nat) :
    Page ClientInPageDto where
  content := ((clients.drop offset).take limit).map .of
  offset := offset
  limit := limit
  size := ((clients.drop offset).take limit).length
  totalElements := clients.length
  totalPages := divCeil clients.length limit
  next := if offset + limit < clients.length then
    some (pageLink clientsPath (offset + limit) limit) else none
  prev := if offset > 0 then some (pageLink clientsPath (offset - limit) limit) else none

variable {clients : HashMap ClientId ClientInfo} {entries : List (ClientId × ClientInfo)}
  {offset limit : Nat}

theorem toList_singletonMap (entry : ClientId × ClientInfo) :
    (singletonMap entry).toList = [entry] := by
  refine HashMap.toList_eq_of_ascending (List.pairwise_singleton _ _) fun clientId info => ?_
  rw [List.mem_singleton, singletonMap, HashMap.getElem?_insert]
  constructor
  · rintro rfl
    rw [if_pos rfl]
  · intro found
    split at found
    · rename_i same
      cases found
      rw [← same]
    · cases found

theorem flatMap_singletonMap (entries : List (ClientId × ClientInfo)) :
    (entries.map singletonMap).flatMap (·.toList) = entries := by
  rw [List.flatMap_map]
  simp only [toList_singletonMap]
  exact List.flatMap_singleton' entries

/-- The bounds are what is checked. -/
theorem errors_eq_nil_iff : (⟨offset, limit⟩ : Pagination).errors = [] ↔
    offset ≤ maxOffset ∧ 1 ≤ limit ∧ limit ≤ maxLimit := by
  dsimp only [Pagination.errors]
  rw [List.append_eq_nil_iff]
  constructor
  · rintro ⟨offsets, limits⟩
    split at offsets
    · cases offsets
    · split at limits
      · cases limits
      · omega
  · intro bounds
    rw [if_neg (by omega), if_neg (by omega)]
    exact ⟨rfl, rfl⟩

/-- A page within the bounds, of whatever entries. -/
theorem getClientsPage_eq_pageAt (bounds : offset ≤ maxOffset ∧ 1 ≤ limit ∧ limit ≤ maxLimit) :
    getClientsPage (.ok ⟨offset, limit⟩) entries =
      .ok (pageAt (sortClients entries) offset limit) := by
  have fits : offset + limit < 2 ^ 64 := by
    unfold maxOffset maxLimit at bounds
    omega
  have length := length_sortClients entries
  have accepted := errors_eq_nil_iff.mpr bounds
  have page : getConnectedClients entries ⟨offset, limit⟩ = .ok ⟨_, _⟩ :=
    getConnectedClients_eq fun _ => fits
  dsimp only [getClientsPage]
  rw [if_neg (not_not.mpr accepted), page, ← length]
  simp only [orPanics, bind, Except.bind, flatMap_singletonMap]
  rw [Page.withPaginationLinks_eq fits]
  have pages : (if (sortClients entries).length = 0 then 0 else
      divCeil (sortClients entries).length limit) =
        divCeil (sortClients entries).length limit := by
    split
    · rename_i nobody
      rw [nobody, divCeil, Nat.zero_mod, Nat.zero_div, if_neg (Nat.lt_irrefl 0)]
    · rfl
  simp only [pageAt, Page.new, List.length_map, pages]

/-- A page that is answered is within the bounds. -/
theorem bounds_of_getClientsPage {page : Page ClientInPageDto}
    (got : getClientsPage (.ok ⟨offset, limit⟩) entries = .ok page) :
    offset ≤ maxOffset ∧ 1 ≤ limit ∧ limit ≤ maxLimit := by
  dsimp only [getClientsPage] at got
  split at got
  · cases got
  · rename_i accepted
    exact errors_eq_nil_iff.mp (not_not.mp accepted)

/-- And it is the page of the sorted clients. -/
theorem eq_pageAt_of_getClientsPage {page : Page ClientInPageDto}
    (got : getClientsPage (.ok ⟨offset, limit⟩) entries = .ok page) :
    page = pageAt (sortClients entries) offset limit := by
  rw [getClientsPage_eq_pageAt (bounds_of_getClientsPage got)] at got
  cases got
  rfl

/-! ## One link -/

/-- The query of a link. -/
theorem toList_pageLink (offset limit : Nat) : (pageLink clientsPath offset limit).toList =
    clientsPath.toList ++ '?' ::
      ("offset=" ++ toString offset ++ "&limit=" ++ toString limit).toList := by
  simp [pageLink]

/-- A number is written with digits only. -/
theorem notMem_toString {c : Char} (other : c.isDigit = false) (n : Nat) :
    c ∉ (toString n).toList := by
  intro mem
  have digits : (toString n).toList = Nat.toDigits 10 n := Nat.toList_repr
  rw [digits] at mem
  cases other.symm.trans (Nat.isDigit_of_mem_toDigits (by decide) (by decide) mem)

/-- **A link leads to its page**: the route takes it, and its values are read back. -/
theorem getClients_pageLink {read : ReadQuery} (reads : ReadsLinks read)
    (fits : offset < 2 ^ 64) (fits' : limit < 2 ^ 64) :
    getClients read (pageLink clientsPath offset limit) entries =
      some (getClientsPage (.ok ⟨offset, limit⟩) entries) := by
  have clean : '#' ∉ ("offset=" ++ toString offset ++ "&limit=" ++ toString limit).toList := by
    simp only [String.toList_append, List.mem_append, notMem_toString (c := '#') rfl, or_false]
    decide
  have parts : Url.split (pageLink clientsPath offset limit).toList =
      { Url.split clientsPath.toList with
        query := some ("offset=" ++ toString offset ++ "&limit=" ++ toString limit).toList } := by
    rw [toList_pageLink]
    exact Url.split_query (by decide) (by decide) clean
  have path : (Url.split clientsPath.toList).path = "/api/clients".toList := by decide
  dsimp only [getClients]
  rw [parts, if_pos path, Option.getD_some, String.ofList_toList, Pagination.ofQuery,
    reads offset limit fits fits']
  rfl

/-! ## The walk -/

theorem divCeil_add {a b : Nat} (pos : 0 < b) : divCeil (a + b) b = divCeil a b + 1 := by
  unfold divCeil
  rw [Nat.add_mod_right, Nat.add_div_right a pos]
  split <;> rfl

theorem divCeil_le_one {a b : Nat} (le : a ≤ b) (pos : 0 < b) : divCeil a b ≤ 1 := by
  unfold divCeil
  rcases Nat.lt_or_eq_of_le le with lt | rfl
  · rw [Nat.div_eq_of_lt lt]
    split <;> omega
  · rw [Nat.mod_self, Nat.div_self pos]
    split <;> omega

theorem one_le_divCeil {a b : Nat} (pos : 0 < a) : 1 ≤ divCeil a b := by
  unfold divCeil
  split
  · exact Nat.le_add_left 1 (a / b)
  · rename_i even
    have dvd : b ∣ a := Nat.dvd_of_mod_eq_zero (by omega)
    exact Nat.div_pos (Nat.le_of_dvd pos dvd) (Nat.pos_of_dvd_of_pos dvd pos)

/-- A multiple of the limit that is the position of a client is at most the offset of the last
page. -/
theorem le_lastOffset {total : Nat} (pos : 0 < limit) (multiple : limit ∣ offset)
    (inside : offset < total) : offset ≤ lastOffset total limit := by
  obtain ⟨k, rfl⟩ := multiple
  unfold lastOffset
  rw [Nat.mul_comm limit k]
  apply Nat.mul_le_mul_right
  rw [Nat.le_div_iff_mul_le pos, Nat.mul_comm]
  omega

/-- And a multiple of which the page is the last one is at least that. -/
theorem lastOffset_le {total : Nat} (pos : 0 < limit) (multiple : limit ∣ offset)
    (last : ¬ offset + limit < total) : lastOffset total limit ≤ offset := by
  obtain ⟨k, rfl⟩ := multiple
  unfold lastOffset
  rw [Nat.mul_comm limit k]
  apply Nat.mul_le_mul_right
  apply Nat.le_of_lt_succ
  rw [Nat.div_lt_iff_lt_mul pos, Nat.succ_mul, Nat.mul_comm k limit]
  omega

variable {read : ReadQuery} {visit : Nat → List (ClientId × ClientInfo)}

/-- A visit of a link within the bounds. -/
theorem getClients_of_bounds (reads : ReadsLinks read)
    (bounds : offset ≤ maxOffset ∧ 1 ≤ limit ∧ limit ≤ maxLimit)
    (entries : List (ClientId × ClientInfo)) :
    getClients read (pageLink clientsPath offset limit) entries =
      some (.ok (pageAt (sortClients entries) offset limit)) := by
  have fits : offset < 2 ^ 64 ∧ limit < 2 ^ 64 := by
    unfold maxOffset maxLimit at bounds
    omega
  rw [getClients_pageLink reads fits.1 fits.2, getClientsPage_eq_pageAt bounds]

/-- **A walk from any page** up to the last one: it holds the clients from there on, and is as
long as these fill pages. -/
theorem walk_of_le (reads : ReadsLinks read) (unchanged : ∀ k, Iterates clients (visit k))
    (limits : 1 ≤ limit ∧ limit ≤ maxLimit)
    (within : lastOffset clients.toList.length limit ≤ maxOffset) (k : Nat)
    (multiple : limit ∣ offset) (le : offset ≤ lastOffset clients.toList.length limit) :
    ∃ pages, Walk read visit k (pageLink clientsPath offset limit) pages ∧
      pages.flatMap (·.content) = (clients.toList.drop offset).map .of ∧
      pages.length = max (divCeil (clients.toList.length - offset) limit) 1 ∧
      ∀ page ∈ pages, page.totalPages = divCeil clients.toList.length limit := by
  -- the induction is on the clients that are left
  induction left : clients.toList.length - offset using Nat.strong_induction_on
    generalizing offset k with
  | _ m ih =>
    have got := getClients_of_bounds reads ⟨le.trans within, limits⟩ (visit k)
    rw [sortClients_of_iterates (unchanged k)] at got
    by_cases more : offset + limit < clients.toList.length
    · have follows : (pageAt clients.toList offset limit).next =
          some (pageLink clientsPath (offset + limit) limit) := if_pos more
      obtain ⟨pages, walk, content, count, totals⟩ := ih (clients.toList.length - (offset + limit))
        (by omega) (k + 1) (multiple.add (dvd_refl limit))
        (le_lastOffset limits.1 (multiple.add (dvd_refl limit)) more) rfl
      refine ⟨pageAt clients.toList offset limit :: pages, .next got follows walk, ?_, ?_, ?_⟩
      · rw [List.flatMap_cons, content, pageAt, ← List.map_append, ← List.drop_drop,
          List.take_append_drop]
      · have here : m = clients.toList.length - (offset + limit) + limit := by omega
        have some_left := one_le_divCeil (b := limit) (Nat.sub_pos_of_lt more)
        rw [List.length_cons, count, here, divCeil_add limits.1]
        omega
      · exact List.forall_mem_cons.mpr ⟨rfl, totals⟩
    · have ends : (pageAt clients.toList offset limit).next = none := if_neg more
      refine ⟨[pageAt clients.toList offset limit], .last got ends, ?_, ?_, ?_⟩
      · rw [List.flatMap_singleton, pageAt, List.take_of_length_le]
        rw [List.length_drop]
        omega
      · have few := divCeil_le_one (a := m) (b := limit) (by omega) limits.1
        rw [List.length_singleton]
        omega
      · exact List.forall_mem_singleton.mpr rfl

/-- Every page of a walk is within the bounds, up to the last one. -/
theorem lastOffset_le_of_walk {k : Nat} {url : String} {pages : List (Page ClientInPageDto)}
    (reads : ReadsLinks read) (unchanged : ∀ k, Iterates clients (visit k))
    (limits : 1 ≤ limit ∧ limit ≤ maxLimit) (walk : Walk read visit k url pages)
    (link : url = pageLink clientsPath offset limit) (near : offset ≤ maxOffset + limit)
    (multiple : limit ∣ offset) : lastOffset clients.toList.length limit ≤ maxOffset := by
  have visited {k : Nat} {offset : Nat} {page : Page ClientInPageDto}
      (near : offset ≤ maxOffset + limit)
      (got : getClients read (pageLink clientsPath offset limit) (visit k) = some (.ok page)) :
      offset ≤ maxOffset ∧ page = pageAt clients.toList offset limit := by
    have fits : offset < 2 ^ 64 ∧ limit < 2 ^ 64 := by
      unfold maxOffset maxLimit at *
      omega
    rw [getClients_pageLink reads fits.1 fits.2] at got
    have page := eq_pageAt_of_getClientsPage (Option.some.inj got)
    rw [sortClients_of_iterates (unchanged k)] at page
    exact ⟨(bounds_of_getClientsPage (Option.some.inj got)).1, page⟩
  induction walk generalizing offset with
  | last got ends =>
    subst link
    obtain ⟨within, rfl⟩ := visited near got
    refine (lastOffset_le limits.1 multiple fun more => ?_).trans within
    cases ends.symm.trans (if_pos more)
  | next got follows rest ih =>
    subst link
    obtain ⟨within, rfl⟩ := visited near got
    have more : offset + limit < clients.toList.length := by
      by_contra past
      cases follows.symm.trans (if_neg past)
    have link := Option.some.inj (follows.symm.trans (if_pos more))
    exact ih link (by omega) (multiple.add (dvd_refl limit))

/-- The clients of a map, in the order of the ids. -/
theorem ascending_toList (clients : HashMap ClientId ClientInfo) :
    clients.toList.Pairwise fun a b => a.1 < b.1 := by
  refine Std.ExtTreeMap.ordered_keys_toList.imp fun {a b} lt => ?_
  have lt : a.1 < b.1 := compare_lt_iff_lt.mp lt
  exact lt

/-- Every client once, in the order of the ids. -/
theorem ascending_content (clients : HashMap ClientId ClientInfo) :
    ((clients.toList.map ClientInPageDto.of).map (·.id)).Pairwise (· < ·) := by
  rw [List.map_map]
  exact List.pairwise_map.mpr (ascending_toList clients)

theorem mem_content (clients : HashMap ClientId ClientInfo) (dto : ClientInPageDto) :
    dto ∈ clients.toList.map ClientInPageDto.of ↔
      ∃ clientId info, clients[clientId]? = some info ∧ dto = .of (clientId, info) := by
  rw [List.mem_map]
  constructor
  · rintro ⟨⟨clientId, info⟩, mem, rfl⟩
    exact ⟨clientId, info, Std.ExtTreeMap.mem_toList_iff_getElem?_eq_some.mp mem, rfl⟩
  · rintro ⟨clientId, info, found, rfl⟩
    exact ⟨_, Std.ExtTreeMap.mem_toList_iff_getElem?_eq_some.mpr found, rfl⟩

/-- **Walking the next links lists every client** exactly where the last page begins within the
bound on offsets. -/
theorem listsAll_iff (reads : ReadsLinks read) (limits : 1 ≤ limit ∧ limit ≤ maxLimit)
    (unchanged : ∀ k, Iterates clients (visit k)) :
    (∃ pages, ListsAll read clients visit limit pages) ↔
      lastOffset clients.size limit ≤ maxOffset := by
  rw [← Std.ExtTreeMap.length_toList]
  constructor
  · rintro ⟨pages, lists⟩
    exact lastOffset_le_of_walk reads unchanged limits lists.walk rfl (Nat.zero_le _)
      (dvd_zero limit)
  · intro within
    obtain ⟨pages, walk, content, count, totals⟩ :=
      walk_of_le reads unchanged limits within 0 (dvd_zero limit) (Nat.zero_le _)
    rw [List.drop_zero] at content
    rw [Nat.sub_zero] at count
    refine ⟨pages, walk, ?_, fun dto => ?_, fun page mem => ?_⟩
    · rw [content]
      exact ascending_content clients
    · rw [content]
      exact mem_content clients dto
    · rw [count, totals page mem]

section Scenario

open Scenario

/-- The value of a pair `name=value`. -/
def Scenario.linkValue (name : String) (pair : List Char) : Option Nat :=
  match Url.cut '=' pair with
  | (key, some value) => if key = name.toList then (String.ofList value).toNat? else none
  | (_, none) => none

/-- The two values of a link's query, in the order the links have them. -/
def Scenario.readLinkQuery : ReadQuery := fun query =>
  match Url.cut '&' query.toList with
  | (first, second) => .ok (linkValue "offset" first, linkValue "limit" (second.getD []))

theorem Scenario.linkValue_toString (name : String) (clean : '=' ∉ name.toList) (n : Nat) :
    linkValue name (name.toList ++ '=' :: (toString n).toList) = some n := by
  unfold linkValue
  rw [Url.cut_append clean]
  simp only [if_true, String.ofList_toList]
  exact Nat.toNat?_repr n

theorem Scenario.readsLinks_readLinkQuery : ReadsLinks readLinkQuery := by
  intro offset limit _ _
  have text : ("offset=" ++ toString offset ++ "&limit=" ++ toString limit).toList =
      ("offset".toList ++ '=' :: (toString offset).toList) ++ '&' ::
        ("limit".toList ++ '=' :: (toString limit).toList) := by
    simp
  have clean : '&' ∉ "offset".toList ++ '=' :: (toString offset).toList := by
    simp only [List.mem_append, List.mem_cons, notMem_toString (c := '&') rfl, or_false]
    decide
  unfold readLinkQuery
  rw [text, Url.cut_append clean]
  show Except.ok (linkValue "offset" _, linkValue "limit" _) = _
  rw [linkValue_toString "offset" (by decide), Option.getD_some,
    linkValue_toString "limit" (by decide)]

/-- Some information of a client. -/
def Scenario.someInfo : ClientInfo := ⟨0, 0, 0⟩

/-- Eight digits are a valid id. -/
def Scenario.numberedClient (k : Nat) : ClientId :=
  ⟨String.ofList (hexDigits 8 k), by
    rw [String.length_ofList, length_hexDigits]
    omega⟩

/-- As many clients as asked for. -/
def Scenario.manyClients (n : Nat) : HashMap ClientId ClientInfo :=
  Std.ExtTreeMap.ofList ((List.range n).map fun k => (numberedClient k, someInfo))

theorem Scenario.numberedClient_injective {a b : Nat} (ha : a < 16 ^ 8) (hb : b < 16 ^ 8)
    (same : numberedClient a = numberedClient b) : a = b := by
  have digits := congrArg (fun clientId : ClientId => clientId.val.toList) same
  simp only [numberedClient, String.toList_ofList] at digits
  exact hexDigits_injective ha hb digits

theorem Scenario.size_manyClients {n : Nat} (few : n ≤ 16 ^ 8) : (manyClients n).size = n := by
  have distinct : ((List.range n).map fun k => (numberedClient k, someInfo)).Pairwise
      fun e e' => ¬ compare e.1 e'.1 = .eq := by
    apply List.pairwise_map.mpr
    have lt := List.pairwise_lt_range (n := n)
    refine (List.Pairwise.and_mem.mp lt).imp ?_
    rintro a b ⟨ha, hb, less⟩ same
    rw [List.mem_range] at ha hb
    have equal := numberedClient_injective (by omega) (by omega) (compare_eq_iff_eq.mp same)
    omega
  unfold manyClients
  rw [Std.ExtTreeMap.size_ofList distinct, List.length_map, List.length_range]

/-- Two clients, one on each page. -/
theorem listsAll_two : ∃ pages, ListsAll readLinkQuery
    (((∅ : HashMap ClientId ClientInfo).insert alice someInfo).insert bob someInfo)
    (fun _ => [(alice, someInfo), (bob, someInfo)]) 1 pages := by
  refine (listsAll_iff readsLinks_readLinkQuery (by decide) fun _ => ⟨[alice, bob], ?_⟩).mpr ?_
  · decide +kernel
  · decide +kernel

/-- With a limit of one, 100 002 clients are too many: the page at the largest offset links to an
offset above it. -/
theorem not_listsAll : ¬ ∀ (read : ReadQuery) (clients : HashMap ClientId ClientInfo)
    (visit : Nat → List (ClientId × ClientInfo)) (limit : Nat), ReadsLinks read →
    1 ≤ limit ∧ limit ≤ maxLimit → (∀ k, Iterates clients (visit k)) →
    ∃ pages, ListsAll read clients visit limit pages := by
  intro claim
  have iterates (k : Nat) : Iterates (manyClients 100002)
      ((manyClients 100002).keys.filterMap fun k => (manyClients 100002)[k]?.map (k, ·)) :=
    ⟨(manyClients 100002).keys, if_pos (List.Perm.refl _)⟩
  obtain ⟨pages, lists⟩ := claim readLinkQuery (manyClients 100002) _ 1 readsLinks_readLinkQuery
    (by decide) iterates
  have within := lastOffset_le_of_walk readsLinks_readLinkQuery iterates (by decide) lists.walk rfl
    (Nat.zero_le _) (one_dvd 0)
  rw [Std.ExtTreeMap.length_toList, size_manyClients (by decide)] at within
  exact absurd within (by decide)

end Scenario

end Revent
