import Revent.Domain.HashMap

/-!
# Identifiers

The newtypes of `domain/mod.rs`, `domain/messages/mod.rs` and `domain/source_events/mod.rs`. A
validated identifier carries the bounds its constructor checked, so no other value exists.

`str` is compared by its bytes in the source and by its code points here; UTF-8 keeps the order,
and `chars().count()` is the length.
-/

namespace Revent

/-- `char::is_whitespace`: the code points with the Unicode property `White_Space`. -/
def isWhitespace (c : Char) : Bool :=
  (0x9 ≤ c.toNat && c.toNat ≤ 0xD) || c.toNat = 0x20 || c.toNat = 0x85 || c.toNat = 0xA0 ||
    c.toNat = 0x1680 || (0x2000 ≤ c.toNat && c.toNat ≤ 0x200A) || c.toNat = 0x2028 ||
    c.toNat = 0x2029 || c.toNat = 0x202F || c.toNat = 0x205F || c.toNat = 0x3000

/-- `s.trim().is_empty()`. -/
def isBlank (s : String) : Bool := s.toList.all isWhitespace

/-! ## Client ids -/

/-- `ClientId(String)`. -/
structure ClientId where
  val : String
  valid : 3 ≤ val.length ∧ val.length ≤ 64
  deriving DecidableEq

/-- `ClientIdNotValid(pub String)`. -/
structure ClientIdNotValid where
  reason : String
  deriving DecidableEq

/-- `ClientId::new`. -/
def ClientId.new (clientId : String) : Except ClientIdNotValid ClientId :=
  if clientId.isEmpty then .error ⟨"ClientId is empty"⟩
  else if long : clientId.length > 64 then .error ⟨"ClientId is too long"⟩
  else if short : clientId.length < 3 then .error ⟨"ClientId is too short"⟩
  else .ok ⟨clientId, by omega, by omega⟩

/-- A valid client id is the text it was made of. -/
theorem ClientId.new_ok {s : String} {clientId : ClientId} :
    ClientId.new s = .ok clientId ↔ clientId.val = s := by
  constructor
  · intro valid
    unfold ClientId.new at valid
    split at valid
    · cases valid
    · split at valid
      · cases valid
      · split at valid <;> cases valid
        rfl
  · rintro rfl
    obtain ⟨short, long⟩ := clientId.valid
    have filled : clientId.val.isEmpty = false := by
      rw [Bool.eq_false_iff, ne_eq, String.isEmpty_iff]
      intro empty
      rw [empty] at short
      cases short
    unfold ClientId.new
    rw [filled, if_neg nofun, dif_neg (Nat.not_lt_of_le long), dif_neg (Nat.not_lt_of_le short)]

theorem ClientId.val_injective : Function.Injective ClientId.val := by
  rintro ⟨a, _⟩ ⟨b, _⟩ h
  cases h
  rfl

/-- `derive(PartialOrd, Ord)`. -/
instance : LinearOrder ClientId := LinearOrder.lift' ClientId.val ClientId.val_injective

instance : Std.TransOrd ClientId := inferInstance

instance : Std.LawfulEqOrd ClientId := ⟨compare_eq_iff_eq.mp⟩

/-! ## Query ids and aggregate ids -/

/-- The bounds shared by `QueryId::new` and `AggregateId::new`. -/
def Named (s : String) : Prop := isBlank s = false ∧ 3 ≤ s.length ∧ s.length ≤ 255

instance (s : String) : Decidable (Named s) := by unfold Named; infer_instance

/-- `InvalidQueryId` and `InvalidAggregateId`, which have the same cases. -/
inductive InvalidName where
  | empty
  | tooShort (len min : Nat)
  | tooLong (len max : Nat)
  deriving DecidableEq

/-- The checks of `QueryId::new` and `AggregateId::new`, in their order. -/
def checkName (s : String) : Except InvalidName { s : String // Named s } :=
  if blank : isBlank s then .error .empty
  else if long : s.length > 255 then .error (.tooLong s.length 255)
  else if short : s.length < 3 then .error (.tooShort s.length 3)
  else .ok ⟨s, by simpa using blank, by omega, by omega⟩

/-- A valid name is the text that was checked. -/
theorem checkName_ok {s : String} {name : { s : String // Named s }} :
    checkName s = .ok name ↔ name.1 = s := by
  constructor
  · intro valid
    unfold checkName at valid
    split at valid
    · cases valid
    · split at valid
      · cases valid
      · split at valid <;> cases valid
        rfl
  · rintro rfl
    obtain ⟨filled, short, long⟩ := name.2
    unfold checkName
    rw [dif_neg (by rw [filled]; nofun), dif_neg (Nat.not_lt_of_le long),
      dif_neg (Nat.not_lt_of_le short)]

variable {α : Type} {mk : { s : String // Named s } → α} {s : String}

/-- What is made of a checked name is made of the text that was checked. -/
theorem checkName_map_ok (inj : Function.Injective mk) (name : { s : String // Named s }) :
    (checkName s).map mk = .ok (mk name) ↔ name.1 = s := by
  rw [← checkName_ok]
  cases checkName s with
  | error err => exact iff_of_false nofun nofun
  | ok checked =>
    constructor
    · intro made
      rw [inj (Except.ok.inj made)]
    · intro same
      rw [Except.ok.inj same]
      rfl

/-- A text that is refused is no name. -/
theorem not_named_of_error {err : InvalidName} (refused : (checkName s).map mk = .error err) :
    ¬ Named s := by
  intro named
  have accepted : checkName s = .ok ⟨s, named⟩ := checkName_ok.mpr rfl
  rw [accepted] at refused
  cases refused

/-- `QueryId(String)`. -/
structure QueryId where
  val : String
  valid : Named val
  deriving DecidableEq

/-- `QueryId::new`. -/
def QueryId.new (queryId : String) : Except InvalidName QueryId :=
  (checkName queryId).map fun s => ⟨s.1, s.2⟩

theorem QueryId.new_ok {s : String} {queryId : QueryId} :
    QueryId.new s = .ok queryId ↔ queryId.val = s :=
  checkName_map_ok (fun _ _ same => Subtype.ext (congrArg QueryId.val same))
    ⟨queryId.val, queryId.valid⟩

theorem QueryId.val_injective : Function.Injective QueryId.val := by
  rintro ⟨a, _⟩ ⟨b, _⟩ h
  cases h
  rfl

/-- `derive(PartialOrd, Ord)`. -/
instance : LinearOrder QueryId := LinearOrder.lift' QueryId.val QueryId.val_injective

instance : Std.TransOrd QueryId := inferInstance

instance : Std.LawfulEqOrd QueryId := ⟨compare_eq_iff_eq.mp⟩

/-- `AggregateId(String)`. -/
structure AggregateId where
  val : String
  valid : Named val
  deriving DecidableEq

/-- `AggregateId::new`. -/
def AggregateId.new (aggregateId : String) : Except InvalidName AggregateId :=
  (checkName aggregateId).map fun s => ⟨s.1, s.2⟩

theorem AggregateId.new_ok {s : String} {aggregateId : AggregateId} :
    AggregateId.new s = .ok aggregateId ↔ aggregateId.val = s :=
  checkName_map_ok (fun _ _ same => Subtype.ext (congrArg AggregateId.val same))
    ⟨aggregateId.val, aggregateId.valid⟩

/-! ## Request ids and event ids -/

/-- `Uuid`: 128 bits. -/
abbrev Uuid := BitVec 128

/-- The last `n` hexadecimal digits of a number, in lower case. -/
def hexDigits : Nat → Nat → List Char
  | 0, _ => []
  | n + 1, k => hexDigits n (k / 16) ++ [Nat.digitChar (k % 16)]

/-- `Uuid::to_string`: the digits in groups of 8, 4, 4, 4 and 12. -/
def Uuid.toString (uuid : Uuid) : String :=
  let hex := hexDigits 32 uuid.toNat
  String.ofList (hex.take 8 ++ '-' :: ((hex.drop 8).take 4 ++ '-' :: ((hex.drop 12).take 4 ++
    '-' :: ((hex.drop 16).take 4 ++ '-' :: hex.drop 20))))

theorem digitChar_injective : ∀ a b : Fin 16, Nat.digitChar a = Nat.digitChar b → a = b := by
  decide

theorem hexDigits_injective {n a b : Nat} (ha : a < 16 ^ n) (hb : b < 16 ^ n)
    (h : hexDigits n a = hexDigits n b) : a = b := by
  induction n generalizing a b with
  | zero => omega
  | succ n ih =>
    obtain ⟨front, last⟩ := List.append_inj' h rfl
    have high : a / 16 = b / 16 := ih (by omega) (by omega) front
    have low : a % 16 = b % 16 := by
      have same := digitChar_injective ⟨a % 16, by omega⟩ ⟨b % 16, by omega⟩
        (List.singleton_inj.mp last)
      exact congrArg Fin.val same
    omega

theorem length_hexDigits (n k : Nat) : (hexDigits n k).length = n := by
  induction n generalizing k with
  | zero => rfl
  | succ n ih => rw [hexDigits, List.length_append, ih, List.length_singleton]

theorem hyphen_notMem_hexDigits (n k : Nat) : '-' ∉ hexDigits n k := by
  have digit : ∀ d : Fin 16, '-' ≠ Nat.digitChar d := by decide
  induction n generalizing k with
  | zero => exact List.not_mem_nil
  | succ n ih =>
    simp only [hexDigits, List.mem_append, List.mem_singleton, not_or]
    exact ⟨ih _, digit ⟨k % 16, by omega⟩⟩

/-- Without its hyphens the text is the digits. -/
theorem Uuid.filter_toString (uuid : Uuid) :
    uuid.toString.toList.filter (· ≠ '-') = hexDigits 32 uuid.toNat := by
  have pure {part : List Char} (sub : part ⊆ hexDigits 32 uuid.toNat) :
      part.filter (· ≠ '-') = part := by
    refine List.filter_eq_self.mpr fun c mem => decide_eq_true ?_
    rintro rfl
    exact hyphen_notMem_hexDigits _ _ (sub mem)
  have dropped (n : Nat) := List.drop_subset n (hexDigits 32 uuid.toNat)
  have taken (m n : Nat) : ((hexDigits 32 uuid.toNat).drop n).take m ⊆ hexDigits 32 uuid.toNat :=
    List.Subset.trans (List.take_subset _ _) (dropped n)
  have joined (m n : Nat) : ((hexDigits 32 uuid.toNat).drop n).take m ++
      (hexDigits 32 uuid.toNat).drop (n + m) = (hexDigits 32 uuid.toNat).drop n := by
    rw [← List.drop_drop, List.take_append_drop]
  simp only [Uuid.toString, String.toList_ofList, List.filter_append, List.filter_cons, ne_eq,
    not_true_eq_false, decide_false, Bool.false_eq_true, if_false]
  rw [pure (List.take_subset _ _), pure (taken 4 8), pure (taken 4 12), pure (taken 4 16),
    pure (dropped 20), joined 4 16, joined 4 12, joined 4 8]
  exact joined 8 0

theorem Uuid.toString_injective : Function.Injective Uuid.toString := by
  intro a b h
  have digits := congrArg (fun text : String => text.toList.filter (· ≠ '-')) h
  simp only [Uuid.filter_toString] at digits
  exact BitVec.eq_of_toNat_eq (hexDigits_injective a.isLt b.isLt digits)

/-- `RequestId(Uuid)`. -/
structure RequestId where
  val : Uuid
  deriving DecidableEq

theorem RequestId.toNat_injective : Function.Injective fun r : RequestId => r.val.toNat := by
  rintro ⟨a⟩ ⟨b⟩ h
  exact congrArg RequestId.mk (BitVec.eq_of_toNat_eq h)

/-- `derive(PartialOrd, Ord)`. -/
instance : LinearOrder RequestId := LinearOrder.lift' (·.val.toNat) RequestId.toNat_injective

instance : Std.TransOrd RequestId := inferInstance

instance : Std.LawfulEqOrd RequestId := ⟨compare_eq_iff_eq.mp⟩

/-- `EventId(Uuid)`. -/
structure EventId where
  val : Uuid
  deriving DecidableEq

end Revent
