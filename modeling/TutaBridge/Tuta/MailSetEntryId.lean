import TutaBridge.Std.Base64

/-!
# Element ids of `MailSetEntry`

An entry's element id is four big-endian bytes of `receivedDate >> 10` followed
by the nine raw bytes of the mail's element id, in base64url. `deconstruct` lets
the event handler name the mail of an event without asking the server. It inverts `construct`
up to the timestamp's low bits, and only what `construct` builds is taken apart.
-/

namespace TutaBridge.Tuta.MailSetEntryId

open TutaBridge.Std

/-- `MAIL_ID_BYTES`, the raw size of a mail's `GeneratedId`. -/
def mailIdBytes : Nat := 9

/-- `TIMESTAMP_BYTES`. -/
def timestampBytes : Nat := 4

/-- `MAIL_SET_ENTRY_ID_BYTES`. -/
def mailSetEntryIdBytes : Nat := timestampBytes + mailIdBytes

/-- `TIMESTAMP_SHIFT`: a timestamp is kept in units of 1024 ms. -/
def timestampShift : Nat := 10

/-- `BASE64_URL_SAFE_NO_PAD`. -/
def base64UrlSafe : Base64.Alphabet :=
  "ABCDEFGHIJKLMNOPQRSTUVWXYZabcdefghijklmnopqrstuvwxyz0123456789-_".toList

/-- `BASE64_EXT`, whose digits sort like the bytes they stand for. -/
def base64Ext : Base64.Alphabet :=
  "-0123456789ABCDEFGHIJKLMNOPQRSTUVWXYZ_abcdefghijklmnopqrstuvwxyz".toList

/-- `MailSetEntryIdError`, as far as `deconstruct` returns it. -/
inductive Error where
  | invalidBase64Url
  | wrongLength (got : Nat)
deriving DecidableEq, Repr

/-- Split an entry id into the received date, in milliseconds, and the mail's
element id. -/
def deconstruct (id : String) : Except Error (Nat × String) :=
  match Base64.decode base64UrlSafe id with
  | none => .error .invalidBase64Url
  | some buffer =>
    if buffer.length ≠ mailSetEntryIdBytes then .error (.wrongLength buffer.length)
    else
      let truncated := (buffer.take timestampBytes).foldl (fun n byte => n * 256 + byte.toNat) 0
      .ok (truncated * 2 ^ timestampShift, Base64.encode base64Ext (buffer.drop timestampBytes))

/-- The test vector of the web client. -/
example : deconstruct "V7ifKQAAAAAAAAAAAQ" = .ok (1507038372864, "-----------0") := by
  decide +kernel

example : deconstruct "AAAAAAAAAAAAAAAA" = .error (.wrongLength 12) := by decide +kernel

/-! ## Entry ids that are built -/

/-- `u32::to_be_bytes`. -/
def toBigEndian (value : Nat) : List UInt8 :=
  [.ofNat (value / 16777216), .ofNat (value / 65536 % 256), .ofNat (value / 256 % 256), .ofNat (value % 256)]

/-- `u32::from_be_bytes`. -/
def ofBigEndian (bytes : List UInt8) : Nat := bytes.foldl (fun value byte => value * 256 + byte.toNat) 0

/-- The entry id of a mail that was received at a date in milliseconds. It is `none` where the
source panics: on a mail id that is not nine bytes. -/
def construct (receiveDate : Nat) (mailId : String) : Option String :=
  (Base64.decode base64Ext mailId).bind fun mailBytes =>
    if mailBytes.length ≠ mailIdBytes then none
    else
      let truncated := receiveDate / 2 ^ timestampShift % 2 ^ 32
      some (Base64.encode base64UrlSafe (toBigEndian truncated ++ mailBytes))

example : construct 1507038373000 "-----------0" = some "V7ifKQAAAAAAAAAAAQ" := by decide +kernel

theorem ofBigEndian_toBigEndian {value : Nat} (fits : value < 2 ^ 32) : ofBigEndian (toBigEndian value) = value := by
  have back : ∀ value : Nat, value < 256 → (UInt8.ofNat value).toNat = value := fun value small =>
    UInt8.toNat_ofNat_of_lt' small
  simp only [ofBigEndian, toBigEndian, List.foldl_cons, List.foldl_nil]
  rw [back _ (by omega), back _ (by omega), back _ (by omega), back _ (by omega)]
  omega

theorem toBigEndian_ofBigEndian {bytes : List UInt8} (length : bytes.length = timestampBytes) :
    toBigEndian (ofBigEndian bytes) = bytes ∧ ofBigEndian bytes < 2 ^ 32 := by
  obtain ⟨first, second, third, last, rfl⟩ : ∃ first second third last, bytes = [first, second, third, last] :=
    List.length_eq_four.mp length
  have firstBound : first.toNat < 256 := first.toNat_lt
  have secondBound : second.toNat < 256 := second.toNat_lt
  have thirdBound : third.toNat < 256 := third.toNat_lt
  have lastBound : last.toNat < 256 := last.toNat_lt
  have value : ofBigEndian [first, second, third, last] =
      first.toNat * 16777216 + second.toNat * 65536 + third.toNat * 256 + last.toNat := by
    simp only [ofBigEndian, List.foldl_cons, List.foldl_nil]
    omega
  have bytes : ∀ (value : Nat) (byte : UInt8), value = byte.toNat → UInt8.ofNat value = byte := by
    rintro value byte rfl
    exact UInt8.ofNat_toNat
  rw [value]
  refine ⟨?_, by omega⟩
  rw [toBigEndian, bytes _ first (by omega), bytes _ second (by omega), bytes _ third (by omega),
    bytes _ last (by omega)]

theorem base64UrlSafe_distinct : base64UrlSafe.Nodup := by decide +kernel

theorem length_base64UrlSafe : base64UrlSafe.length = 64 := by decide

theorem base64Ext_distinct : base64Ext.Nodup := by decide +kernel

theorem length_base64Ext : base64Ext.length = 64 := by decide

/-- What is built is taken apart again, without the timestamp's low bits. -/
theorem deconstruct_construct {receiveDate : Nat} {mailId : String} {mailBytes : List UInt8}
    (decodes : Base64.decode base64Ext mailId = some mailBytes) (length : mailBytes.length = mailIdBytes)
    (inRange : receiveDate < 2 ^ 42) : ∃ id, construct receiveDate mailId = some id ∧
      deconstruct id = .ok (receiveDate - receiveDate % 2 ^ timestampShift, mailId) := by
  have fits : receiveDate / 2 ^ timestampShift < 2 ^ 32 := by
    rw [timestampShift]
    omega
  refine ⟨Base64.encode base64UrlSafe (toBigEndian (receiveDate / 2 ^ timestampShift) ++ mailBytes), ?_, ?_⟩
  · rw [construct, decodes, Option.bind_some, if_neg (not_not.mpr length), Nat.mod_eq_of_lt fits]
  · have taken : (toBigEndian (receiveDate / 2 ^ timestampShift) ++ mailBytes).take timestampBytes =
        toBigEndian (receiveDate / 2 ^ timestampShift) := List.take_left' rfl
    have dropped : (toBigEndian (receiveDate / 2 ^ timestampShift) ++ mailBytes).drop timestampBytes =
        mailBytes := List.drop_left' rfl
    have whole : (toBigEndian (receiveDate / 2 ^ timestampShift) ++ mailBytes).length =
        mailSetEntryIdBytes := by
      rw [List.length_append, length]
      rfl
    have date : receiveDate / 2 ^ timestampShift * 2 ^ timestampShift =
        receiveDate - receiveDate % 2 ^ timestampShift := by
      rw [timestampShift]
      omega
    rw [deconstruct, Base64.decode_encode base64UrlSafe_distinct length_base64UrlSafe]
    simp only [whole, ne_eq, not_true_eq_false, if_false, taken, dropped]
    rw [Base64.encode_decode length_base64Ext decodes, ← ofBigEndian, ofBigEndian_toBigEndian fits, date]

/-- What is taken apart is what is built of its parts. -/
theorem construct_of_deconstruct {id mailId : String} {receiveDate : Nat}
    (parts : deconstruct id = .ok (receiveDate, mailId)) : construct receiveDate mailId = some id := by
  unfold deconstruct at parts
  split at parts
  · cases parts
  next buffer decodes =>
    split at parts
    · cases parts
    next isLength =>
      rw [not_not] at isLength
      cases parts
      have split : buffer.take timestampBytes ++ buffer.drop timestampBytes = buffer :=
        List.take_append_drop _ _
      have timestamp : (buffer.take timestampBytes).length = timestampBytes := by
        rw [List.length_take, isLength]
        rfl
      have mail : (buffer.drop timestampBytes).length = mailIdBytes := by
        rw [List.length_drop, isLength]
        rfl
      obtain ⟨bytes, inRange⟩ := toBigEndian_ofBigEndian timestamp
      have date : ofBigEndian (buffer.take timestampBytes) * 2 ^ timestampShift / 2 ^ timestampShift =
          ofBigEndian (buffer.take timestampBytes) := Nat.mul_div_cancel _ (Nat.two_pow_pos _)
      rw [construct, Base64.decode_encode base64Ext_distinct length_base64Ext, Option.bind_some,
        if_neg (not_not.mpr mail), ← ofBigEndian, date, Nat.mod_eq_of_lt inRange]
      dsimp only
      rw [bytes, split, Base64.encode_decode length_base64UrlSafe decodes]

/-- Entry ids round-trip: what is built is taken apart without the timestamp's low bits, what is
taken apart is built again, and so no two ids have the same parts. -/
theorem entry_id_round_trip : (∀ receiveDate mailId mailBytes, Base64.decode base64Ext mailId = some mailBytes →
      mailBytes.length = mailIdBytes → receiveDate < 2 ^ 42 → ∃ id, construct receiveDate mailId = some id ∧
          deconstruct id = .ok (receiveDate - receiveDate % 2 ^ timestampShift, mailId)) ∧
      (∀ id receiveDate mailId, deconstruct id = .ok (receiveDate, mailId) → construct receiveDate mailId = some id) ∧
      ∀ id other parts, deconstruct id = .ok parts → deconstruct other = .ok parts → id = other := by
  refine ⟨fun _ _ _ decodes length inRange => deconstruct_construct decodes length inRange,
    fun _ _ _ parts => construct_of_deconstruct parts, ?_⟩
  rintro id other ⟨receiveDate, mailId⟩ parts otherParts
  have built := construct_of_deconstruct parts
  rw [construct_of_deconstruct otherParts] at built
  exact (Option.some.inj built).symm

/-- The test vector, in both directions. -/
theorem entry_id_round_trip_vector :
    (∃ id, construct 1507038373000 "-----------0" = some id ∧
      deconstruct id = .ok (1507038372864, "-----------0")) ∧
      construct 1507038372864 "-----------0" = some "V7ifKQAAAAAAAAAAAQ" :=
  ⟨entry_id_round_trip.1 1507038373000 "-----------0" [0, 0, 0, 0, 0, 0, 0, 0, 1] (by decide +kernel)
    rfl (by decide), entry_id_round_trip.2.1 "V7ifKQAAAAAAAAAAAQ" 1507038372864 "-----------0"
      (by decide +kernel)⟩

end TutaBridge.Tuta.MailSetEntryId
