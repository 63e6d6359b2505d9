import SecureCoap.Oscore.Checked
import SecureCoap.Proofs.Checked
import SecureCoap.Proofs.Oscore.Derivation
import SecureCoap.Proofs.Oscore.History
import SecureCoap.Proofs.Oscore.OptionValue

/-!
# No step goes out of range

A derived context has keys, identifiers and an initialisation vector of the lengths that its
algorithm asks for, and its numbers are words. Every call keeps that, and from it follows that no
step of a call goes out of range: checking every step makes no difference.
-/

namespace SecureCoap

open Bytes

namespace Oscore

variable {crypto : Primitives}

/-! ### Partial initialisation vectors and nonces -/

theorem PartialIv.ofNumber?_eq (n : Nat) : ofNumber? n = some (ofNumber n) := by
  have hdrop : (Bytes.ofNat 8 n).dropWhile (· = 0) =
      (Bytes.ofNat 8 n).drop ((Bytes.ofNat 8 n).findIdx (· ≠ 0)) := by
    rw [List.dropWhile_eq_drop_findIdx_not]
    simp
  unfold ofNumber? ofNumber
  cases hfind : (Bytes.ofNat 8 n).findIdx? (· ≠ 0) with
  | none =>
    have hnone := List.findIdx?_eq_none_iff_findIdx_eq.mp hfind
    rw [hdrop, hnone, List.drop_length]
    simp only [hfind]
  | some start =>
    obtain ⟨hlt, hstart⟩ := List.findIdx?_eq_some_iff_findIdx_eq.mp hfind
    have hslice := slice?_of_le (Nat.le_of_lt hlt) (Nat.le_refl _)
    rw [List.take_length] at hslice
    simp only [hfind, hslice]
    rw [hdrop, hstart]
    cases hrest : (Bytes.ofNat 8 n).drop start with
    | nil =>
      have hlength := congrArg List.length hrest
      rw [List.length_drop, List.length_nil] at hlength
      omega
    | cons b bs => rfl

theorem PartialIv.toNumber?_eq (piv : Bytes) : toNumber? piv = some (toNumber piv) := by
  have hle : (takeRight 8 piv).length ≤ 8 := length_takeRight_le 8 piv
  have hfill := fill?_padLeft [] [] hle
  simp only [List.length_nil, Nat.zero_add, List.nil_append, List.append_nil] at hfill
  unfold toNumber?
  rw [takeRight?_eq]
  simp only [Option.bind_eq_bind, Option.bind_some, Word.sub?_of_le hle, hfill]
  show some (toNat (padLeft 8 (takeRight 8 piv))) = _
  rw [toNat_padLeft]
  rfl

theorem length_nonce (piv id : Bytes) {commonIv : Bytes} (h : 6 ≤ commonIv.length) :
    (nonce piv id commonIv).length = commonIv.length := by
  have hroom : idRoom commonIv.length = commonIv.length - 6 := by
    unfold idRoom pivRoom
    omega
  have hpiv : pivRoom = 5 := rfl
  unfold nonce
  simp only [length_xor, List.length_append, List.length_cons,
    length_padLeft (length_takeRight_le _ _)]
  omega

/-- All slices of a nonce lie within it, whatever the lengths of vector and identifier. -/
theorem nonce?_eq (piv id : Bytes) {commonIv : Bytes} (h : 6 ≤ commonIv.length) :
    nonce? piv id commonIv = some (nonce piv id commonIv) := by
  let room := idRoom commonIv.length
  let shortId := takeRight room id
  let shortPiv := takeRight pivRoom piv
  have hroom : commonIv.length - 6 = room := by
    show _ = commonIv.length - 1 - 5
    omega
  have hid : shortId.length ≤ room := length_takeRight_le room id
  have hpiv : shortPiv.length ≤ pivRoom := length_takeRight_le pivRoom piv
  have hfive : pivRoom = 5 := rfl
  -- The fields are filled from left to right: length, identifier and vector.
  have hempty : List.replicate commonIv.length (0 : UInt8) =
      0 :: (List.replicate room 0 ++ List.replicate pivRoom 0) := by
    rw [List.replicate_append_replicate, ← List.replicate_succ]
    congr 1
    omega
  have hfirst : Bytes.modify? 0 (fun _ => UInt8.ofNat shortId.length)
      (List.replicate commonIv.length 0) =
        some ([UInt8.ofNat shortId.length] ++ List.replicate room 0 ++
          List.replicate pivRoom 0) := by
    rw [hempty]
    rfl
  have hsecond := fill?_padLeft [UInt8.ofNat shortId.length] (List.replicate pivRoom 0) hid
  have hthird := fill?_padLeft ([UInt8.ofNat shortId.length] ++ padLeft room shortId) [] hpiv
  have hidEnd : [UInt8.ofNat shortId.length].length + room = commonIv.length - 5 := by
    rw [List.length_singleton]
    omega
  have hpivEnd : ([UInt8.ofNat shortId.length] ++ padLeft room shortId).length + pivRoom =
      commonIv.length := by
    rw [List.length_append, List.length_singleton, length_padLeft hid]
    omega
  rw [hidEnd] at hsecond
  rw [hpivEnd, List.append_nil, List.append_nil] at hthird
  unfold nonce?
  simp only [Word.sub?_of_le h, Option.bind_eq_bind, Option.bind_some, hroom, takeRight?_eq]
  show (Bytes.modify? 0 (fun _ => UInt8.ofNat shortId.length) _).bind _ = _
  rw [hfirst]
  have hidStart : Word.sub? (commonIv.length - 5) shortId.length =
      some (commonIv.length - 5 - shortId.length) := Word.sub?_of_le (by omega)
  have hpivStart : Word.sub? commonIv.length shortPiv.length =
      some (commonIv.length - shortPiv.length) := Word.sub?_of_le (by omega)
  show ((Word.sub? commonIv.length 5).bind fun idEnd =>
    (Word.sub? idEnd shortId.length).bind fun start => (fill? start idEnd shortId _).bind
      fun fields => (Word.sub? commonIv.length shortPiv.length).bind fun start =>
        (fill? start commonIv.length shortPiv fields).bind fun fields => some (xor fields commonIv))
    = _
  simp only [Word.sub?_of_le (show 5 ≤ commonIv.length by omega), hidStart, hpivStart, hsecond,
    hthird, Option.bind_some]
  rfl

/-! ### Replay windows -/

namespace ReplayWindow

variable {w : ReplayWindow}

theorem isValid?_eq (h : w.size ≤ maxSize) (n : Nat) : w.isValid? n = some (w.isValid n) := by
  unfold isValid? isValid
  cases w.highest with
  | none => rfl
  | some highest =>
    by_cases hlt : highest < n
    · simp [hlt]
    · have hage : Word.sub? highest n = some (highest - n) :=
        Word.sub?_of_le (Nat.le_of_not_lt hlt)
      by_cases hin : highest - n < w.size
      · have hbit : Word.shiftLeft? 1 (highest - n) = some (2 ^ (highest - n)) :=
          Word.shiftLeft?_one (Nat.lt_of_lt_of_le hin h)
        simp [hlt, hage, hin, hbit, Nat.and_two_pow]
      · simp [hlt, hage, hin]

theorem mask?_eq (w : ReplayWindow) : w.mask? = some w.mask := by
  unfold mask? mask maxSize
  by_cases h : 64 ≤ w.size
  · rw [if_pos h, if_pos h]
    rfl
  · have hone : 1 ≤ 2 ^ w.size := Nat.one_le_two_pow
    have hbit : Word.shiftLeft? 1 w.size = some (2 ^ w.size) :=
      Word.shiftLeft?_one (Nat.lt_of_not_le h)
    rw [if_neg h, if_neg h, hbit, Nat.one_shiftLeft]
    exact Word.sub?_of_le hone

theorem moved?_eq (w : ReplayWindow) (distance : Nat) :
    w.moved? distance = some (w.moved distance) := by
  unfold moved? moved maxSize
  by_cases h : 64 ≤ distance
  · rw [if_pos h, if_pos h]
    rfl
  · have hmove : Word.shiftLeft? w.seen distance = some ((w.seen <<< distance) % 2 ^ 64) :=
      Word.shiftLeft?_of_lt (Nat.lt_of_not_le h) w.seen
    rw [if_neg h, if_neg h, hmove]
    rfl

theorem marked?_eq (w : ReplayWindow) (n : Nat) : w.marked? n = some (w.marked n) := by
  unfold marked? marked
  cases w.highest with
  | none =>
    simp only [moved?_eq]
    rfl
  | some highest =>
    by_cases hle : n ≤ highest
    · by_cases hin : highest - n < 64
      · simp [hle, hin, Word.sub?_of_le hle, Word.shiftLeft?_one hin, maxSize, Nat.one_shiftLeft]
      · simp [hle, hin, Word.sub?_of_le hle, maxSize]
    · have hlt : highest ≤ n := Nat.le_of_not_le hle
      simp [hle, Word.sub?_of_le hlt, moved?_eq]

theorem strikeOut?_eq (w : ReplayWindow) (n : Nat) : w.strikeOut? n = some (w.strikeOut n) := by
  unfold strikeOut?
  rw [marked?_eq]
  show ((w.marked n).mask?).bind _ = _
  rw [mask?_eq]
  rfl

end ReplayWindow

/-! ### Parts of messages -/

theorem OptionValue.encode?_eq (v : OptionValue) : encode? v = some (encode v) := by
  obtain ⟨kid, piv⟩ := v
  have hlow (n : Nat) : UInt8.ofNat n &&& 0b0111 = UInt8.ofNat (n % 8) := by
    apply UInt8.toNat_inj.mp
    rw [UInt8.toNat_and, UInt8.toNat_ofNat', UInt8.toNat_ofNat']
    show n % 256 &&& 2 ^ 3 - 1 = _
    rw [Nat.and_two_pow_sub_one_eq_mod]
    omega
  have hboth : ∀ m : Fin 8, 0 ||| UInt8.ofNat m.val ||| 0b1000 = UInt8.ofNat (m.val + 8) := by
    decide
  cases piv with
  | none =>
    cases kid with
    | none => rfl
    | some kid => simp [encode?, encode, flags, kidFlag, Bytes.modify?]
  | some piv =>
    have hzero : 0 ||| UInt8.ofNat piv.length &&& 0b0111 = UInt8.ofNat (piv.length % 8) := by
      rw [hlow, UInt8.zero_or]
    cases kid with
    | none =>
      show some ((0 ||| UInt8.ofNat piv.length &&& 0b0111) :: piv) = _
      rw [hzero]
      simp [encode, flags]
    | some kid =>
      show some ((0 ||| UInt8.ofNat piv.length &&& 0b0111 ||| 0b1000) :: (piv ++ kid)) = _
      rw [hlow, hboth ⟨piv.length % 8, Nat.mod_lt _ (by decide)⟩]
      simp [encode, flags, kidFlag]

/-! ### Results that are there -/

namespace Checked

variable {α β : Type}

theorem step_bind (a : α) (f : α → Checked β) : ((liftM (some a) : Checked α) >>= f) = f a := rfl

theorem result_bind (x : Except Error α) (f : α → Except Error β) :
    ((liftM x : Checked α) >>= fun a => liftM (f a)) = liftM (x >>= f) := by
  cases x with
  | error e => rfl
  | ok a => rfl

theorem ok_bind (a : α) (f : α → Checked β) :
    ((liftM (Except.ok a : Except Error α) : Checked α) >>= f) = f a := rfl

theorem run_result (x : Except Error α) : (liftM x : Checked α).run = some x := rfl

end Checked

theorem OptionValue.ofPacket?_eq (p : Coap.Packet) :
    ofPacket? p = (liftM (ofPacket p) : Checked OptionValue) := by
  unfold ofPacket? ofPacket
  cases p.options.values Coap.Options.oscore with
  | nil => rfl
  | cons v vs =>
    show (liftM (decode? v) : Checked OptionValue) = _
    rw [decode?_eq]
    rfl

theorem itemFrom?_zero (item : Bytes) : itemFrom? 0 item = some item :=
  remove?_of_le (Nat.le_refl 0) (Nat.zero_le _)

theorem aad?_eq (aead : AeadAlgorithm) (kid piv : Bytes) :
    aad? aead kid piv = some (aad aead kid piv) := by
  unfold aad?
  rw [itemFrom?_zero]
  show itemFrom? 0 _ = _
  rw [itemFrom?_zero]
  rfl

theorem plaintext?_eq (p : Coap.Packet) : plaintext? p = (liftM (plaintext p) : Checked Bytes) := by
  unfold plaintext? plaintext Coap.Packet.serialize
  by_cases h : p.length ≤ Coap.maxPacketLength
  · have hlimit : Coap.maxPacketLength = 1280 := rfl
    have htoken : 4 + p.token.length ≤ p.length := by
      unfold Coap.Packet.length
      omega
    have hadd : Word.add? 4 p.token.length = some (4 + p.token.length) :=
      Word.add?_of_lt (by omega)
    have hshape : (p.initial :: p.code.toByte :: Bytes.ofNat 2 p.messageId.toNat ++ p.token ++
        p.contents) = ([p.initial, p.code.toByte] ++ Bytes.ofNat 2 p.messageId.toNat ++ p.token) ++
          p.contents := rfl
    have hfront : ([p.initial, p.code.toByte] ++ Bytes.ofNat 2 p.messageId.toNat ++
        p.token).length = 4 + p.token.length := by
      simp
      omega
    have hcut : Bytes.remove? 2 (4 + p.token.length)
        (p.initial :: p.code.toByte :: Bytes.ofNat 2 p.messageId.toNat ++ p.token ++ p.contents) =
          some (p.initial :: p.code.toByte :: p.contents) := by
      rw [hshape, remove?_of_le (by omega) (by rw [List.length_append]; omega),
        List.drop_left' hfront]
      rfl
    rw [if_pos h, if_pos h]
    show ((liftM (Word.add? 4 p.token.length) : Checked Nat) >>= fun stop =>
      (liftM (Bytes.remove? 2 stop _) : Checked Bytes) >>= fun bytes =>
        liftM (Bytes.remove? 0 1 bytes)) = _
    rw [hadd, Checked.step_bind, hcut, Checked.step_bind,
      remove?_of_le (Nat.zero_le 1) (Nat.le_add_left 1 _)]
    rfl
  · rw [if_neg h, if_neg h]
    rfl

/-! ### Encryption and decryption -/

theorem Sealing.run?_eq {s : Sealing} (hkey : s.key.length = 16) (hnonce : s.nonce.length = 13) :
    s.run? crypto = (liftM (s.run crypto) : Checked Bytes) := by
  unfold Sealing.run?
  rw [exactly?_of_length_eq hkey, Checked.step_bind, exactly?_of_length_eq hnonce,
    Checked.step_bind]

theorem Opening.run?_eq {o : Opening} (hkey : o.key.length = 16) (hnonce : o.nonce.length = 13) :
    o.run? crypto = (liftM (o.run crypto) : Checked Bytes) := by
  unfold Opening.run?
  rw [exactly?_of_length_eq hkey, Checked.step_bind, exactly?_of_length_eq hnonce,
    Checked.step_bind]

namespace Context

variable {ctx : Context}

theorem nonce?_of_fits (h : ctx.Fits) (piv id : Bytes) :
    nonce? piv id ctx.commonIv = some (nonce piv id ctx.commonIv) :=
  nonce?_eq piv id (by rw [h.commonIv]; decide)

theorem length_nonce_of_fits (h : ctx.Fits) (piv id : Bytes) :
    (nonce piv id ctx.commonIv).length = 13 := by
  rw [length_nonce piv id (by rw [h.commonIv]; decide), h.commonIv]

theorem protectMessage?_eq (h : ctx.Fits) (p : Coap.Packet) (id : RequestId) (option : Bytes)
    {nonce : Bytes} (hnonce : nonce.length = 13) :
    ctx.protectMessage? crypto p (aad ctx.aead id.kid id.piv) nonce option = (liftM (do
      let s ← ctx.sealing p id nonce
      let ciphertext ← s.run crypto
      return outer p option ciphertext : Except Error Coap.Packet) : Checked Coap.Packet) := by
  unfold protectMessage? sealing
  cases checkOptions p.options with
  | error e => rfl
  | ok _ =>
    rw [plaintext?_eq]
    cases plaintext (inner p) with
    | error e => rfl
    | ok text =>
      simp only [Checked.ok_bind]
      rw [Sealing.run?_eq h.senderKey hnonce]
      exact Checked.result_bind _ fun ciphertext => pure (outer p option ciphertext)

theorem unprotectMessage?_eq (h : ctx.Fits) (p : Coap.Packet) (id : RequestId) {nonce : Bytes}
    (hnonce : nonce.length = 13) :
    ctx.unprotectMessage? crypto p (aad ctx.aead id.kid id.piv) nonce = (liftM (do
      let o ← ctx.opening p id nonce
      let inside ← parsePlaintext (← o.run crypto)
      return merge p inside : Except Error Coap.Packet) : Checked Coap.Packet) := by
  unfold unprotectMessage? opening
  cases checkOptions p.options with
  | error e => rfl
  | ok _ =>
    let o : Opening := ⟨ctx.recipientKey, nonce, aad ctx.aead id.kid id.piv, p.payload⟩
    have hopen : o.run? crypto = (liftM (o.run crypto) : Checked Bytes) :=
      Opening.run?_eq h.recipientKey hnonce
    show (o.run? crypto >>= fun text => (liftM (parsePlaintext text) : Checked Coap.Packet) >>=
      fun inside => pure (merge p inside)) = liftM (o.run crypto >>= fun text =>
        parsePlaintext text >>= fun inside => (pure (merge p inside) : Except Error _))
    rw [hopen, ← Checked.result_bind]
    congr 1
    funext text
    exact Checked.result_bind (parsePlaintext text) fun inside => pure (merge p inside)

theorem nextPiv?_eq (ctx : Context) : ctx.nextPiv? = (liftM ctx.nextPiv : Checked Bytes) := by
  unfold nextPiv? nextPiv
  split
  · rw [PartialIv.ofNumber?_eq]
    rfl
  · rfl

theorem advance?_eq (h : ctx.sequenceNumber ≤ PartialIv.maxNumber) :
    ctx.advance? = some ctx.advance := by
  have hmax : PartialIv.maxNumber = 2 ^ 40 - 1 := rfl
  unfold advance?
  rw [Word.add?_of_lt (by omega)]
  rfl

theorem accept?_eq (ctx : Context) (n : Nat) : ctx.accept? n = some (ctx.accept n) := by
  unfold accept?
  rw [ReplayWindow.strikeOut?_eq]
  rfl

/-! ### Requests -/

theorem sealRequest?_eq (h : ctx.Fits) (request : Coap.Packet) :
    ctx.sealRequest? crypto request =
      (liftM (ctx.sealRequest crypto request) : Checked (Coap.Packet × RequestId)) := by
  unfold sealRequest? sealRequest requestSealing
  rw [nextPiv?_eq]
  cases ctx.nextPiv with
  | error e => rfl
  | ok piv =>
    rw [Checked.ok_bind, aad?_eq, Checked.step_bind, nonce?_of_fits h, Checked.step_bind,
      OptionValue.encode?_eq, Checked.step_bind,
      protectMessage?_eq h request ⟨ctx.senderId, piv⟩ _ (length_nonce_of_fits h _ _), ok_bind]
    refine (Checked.result_bind _ fun packet =>
      pure (packet, RequestId.mk ctx.senderId piv)).trans ?_
    simp only [bind_assoc, pure_bind]
    rfl

theorem protectRequest?_eq (h : ctx.Fits) (request : Coap.Packet) :
    ctx.protectRequest? crypto request = some (ctx.protectRequest crypto request) := by
  unfold protectRequest? protectRequest
  rw [sealRequest?_eq h, Checked.run_result]
  cases hseal : ctx.sealRequest crypto request with
  | error e => rfl
  | ok result =>
    obtain ⟨packet, id⟩ := result
    obtain ⟨s, ciphertext, hs, -, -⟩ := sealRequest_eq_ok.mp hseal
    obtain ⟨hnumber, -, -⟩ := requestSealing_eq_ok.mp hs
    show (ctx.advance?).bind _ = _
    rw [advance?_eq hnumber]
    rfl

theorem openRequest?_eq (h : ctx.Fits) (hsize : ctx.window.size ≤ ReplayWindow.maxSize)
    (packet : Coap.Packet) :
    ctx.openRequest? crypto packet =
      (liftM (ctx.openRequest crypto packet) : Checked (Coap.Packet × RequestId)) := by
  unfold openRequest? openRequest requestOpening
  rw [OptionValue.ofPacket?_eq]
  cases OptionValue.ofPacket packet with
  | error e => rfl
  | ok value =>
    obtain ⟨_ | kid, _ | piv⟩ := value
    · rfl
    · rfl
    · rfl
    · have hnumber : (⟨kid, piv⟩ : RequestId).sequenceNumber = PartialIv.toNumber piv := rfl
      simp only [Checked.ok_bind, SecureCoap.ok_bind, PartialIv.toNumber?_eq, Checked.step_bind,
        ReplayWindow.isValid?_eq hsize, hnumber]
      cases ctx.window.isValid (PartialIv.toNumber piv) with
      | false => rfl
      | true =>
        rw [if_neg (by simp), if_neg (by simp), aad?_eq, Checked.step_bind, nonce?_of_fits h,
          Checked.step_bind,
          unprotectMessage?_eq h packet ⟨kid, piv⟩ (length_nonce_of_fits h _ _)]
        refine (Checked.result_bind _ fun request =>
          pure (request, RequestId.mk kid piv)).trans ?_
        simp only [bind_assoc, pure_bind]
        rfl

theorem unprotectRequest?_eq (h : ctx.Fits) (hsize : ctx.window.size ≤ ReplayWindow.maxSize)
    (packet : Coap.Packet) :
    ctx.unprotectRequest? crypto packet = some (ctx.unprotectRequest crypto packet) := by
  unfold unprotectRequest? unprotectRequest
  rw [openRequest?_eq h hsize, Checked.run_result]
  cases ctx.openRequest crypto packet with
  | error e => rfl
  | ok result =>
    obtain ⟨request, id⟩ := result
    show ((PartialIv.toNumber? id.piv).bind fun n => (ctx.accept? n).bind _) = _
    rw [PartialIv.toNumber?_eq]
    show (ctx.accept? id.sequenceNumber).bind _ = _
    rw [accept?_eq]
    rfl

/-! ### Responses -/

theorem sealResponse?_eq (h : ctx.Fits) (response : Coap.Packet) (request : RequestId)
    (reusePiv : Bool) :
    ctx.sealResponse? crypto response request reusePiv =
      (liftM (ctx.sealResponse crypto response request reusePiv) : Checked Coap.Packet) := by
  unfold sealResponse? sealResponse responseSealing
  rw [aad?_eq, Checked.step_bind]
  cases reusePiv with
  | true =>
    simp only [if_true, nonce?_of_fits h, OptionValue.encode?_eq, Checked.step_bind]
    rw [protectMessage?_eq h response request _ (length_nonce_of_fits h _ _)]
    simp only [bind_assoc, pure_bind]
    rfl
  | false =>
    simp only [Bool.false_eq_true, if_false, nextPiv?_eq]
    cases ctx.nextPiv with
    | error e => rfl
    | ok piv =>
      simp only [Checked.ok_bind, nonce?_of_fits h, OptionValue.encode?_eq, Checked.step_bind]
      rw [protectMessage?_eq h response request _ (length_nonce_of_fits h _ _)]
      simp only [SecureCoap.ok_bind, bind_assoc, pure_bind]
      rfl

theorem protectResponse?_eq (h : ctx.Fits) (response : Coap.Packet) (request : RequestId)
    (reusePiv : Bool) :
    ctx.protectResponse? crypto response request reusePiv =
      some (ctx.protectResponse crypto response request reusePiv) := by
  unfold protectResponse? protectResponse
  rw [sealResponse?_eq h, Checked.run_result]
  cases hseal : ctx.sealResponse crypto response request reusePiv with
  | error e => rfl
  | ok packet =>
    cases reusePiv with
    | true => rfl
    | false =>
      obtain ⟨s, piv, ciphertext, hs, -, -⟩ := sealResponse_eq_ok.mp hseal
      obtain ⟨hnumber, -, -⟩ := responseSealing_own_eq_ok.mp hs
      show (ctx.advance?).bind _ = _
      rw [advance?_eq hnumber]
      rfl

theorem openResponse?_eq (h : ctx.Fits) (packet : Coap.Packet) (request : RequestId) :
    ctx.openResponse? crypto packet request =
      (liftM (ctx.openResponse crypto packet request) : Checked Coap.Packet) := by
  unfold openResponse? openResponse responseOpening
  rw [OptionValue.ofPacket?_eq]
  cases OptionValue.ofPacket packet with
  | error e => rfl
  | ok value =>
    rw [Checked.ok_bind, ok_bind]
    cases value.piv with
    | none =>
      simp only [nonce?_of_fits h, aad?_eq, Checked.step_bind]
      rw [unprotectMessage?_eq h packet request (length_nonce_of_fits h _ _)]
      rfl
    | some piv =>
      simp only [nonce?_of_fits h, aad?_eq, Checked.step_bind]
      rw [unprotectMessage?_eq h packet request (length_nonce_of_fits h _ _)]
      rfl

theorem unprotectResponse?_eq (h : ctx.Fits) (packet : Coap.Packet) (request : RequestId) :
    ctx.unprotectResponse? crypto packet request =
      some (ctx.unprotectResponse crypto packet request) := by
  unfold unprotectResponse? unprotectResponse
  rw [openResponse?_eq h]
  rfl

/-! ### What every call keeps -/

/-- What keeps every step in range: the lengths that the algorithm asks for, a window as wide as a
word at most, and numbers that are words. -/
structure InRange (ctx : Context) : Prop where
  fits : ctx.Fits
  sequenceNumber : ctx.sequenceNumber ≤ PartialIv.maxNumber + 1
  size_pos : 0 < ctx.window.size
  size_le : ctx.window.size ≤ ReplayWindow.maxSize
  highest : ∀ n, ctx.window.highest = some n → n < 2 ^ 64
  seen : ctx.window.seen < 2 ^ 64

theorem inRange_of_derive {p : Parameters} (h : derive crypto p = .ok ctx) : ctx.InRange where
  fits := fits_of_derive h
  sequenceNumber := by
    rw [sequenceNumber_of_derive h]
    exact Nat.zero_le _
  size_pos := (tracks_of_derive h).size_pos
  size_le := (tracks_of_derive h).size_le
  highest := by
    rw [window_of_derive h]
    intro n hn
    cases hn
  seen := by
    rw [window_of_derive h]
    exact Nat.two_pow_pos 64

theorem perform?_eq (h : ctx.InRange) (call : Call) :
    ctx.perform? crypto call = some (ctx.perform crypto call) := by
  cases call with
  | protectRequest request =>
    show Option.map _ (ctx.protectRequest? crypto request) = _
    rw [protectRequest?_eq h.fits]
    rfl
  | unprotectRequest packet =>
    show Option.map _ (ctx.unprotectRequest? crypto packet) = _
    rw [unprotectRequest?_eq h.fits h.size_le]
    rfl
  | protectResponse response request reusePiv =>
    show Option.map _ (ctx.protectResponse? crypto response request reusePiv) = _
    rw [protectResponse?_eq h.fits]
    rfl
  | unprotectResponse packet request =>
    show Option.map _ (ctx.unprotectResponse? crypto packet request) = _
    rw [unprotectResponse?_eq h.fits]
    rfl

end Context

theorem RequestId.sequenceNumber_lt (id : RequestId) : id.sequenceNumber < 2 ^ 64 := by
  unfold RequestId.sequenceNumber
  rw [PartialIv.toNumber_eq_mod]
  exact Nat.mod_lt _ (Nat.two_pow_pos 64)

namespace ReplayWindow

theorem seen_strikeOut_lt {w : ReplayWindow} (h : w.size ≤ maxSize) (n : Nat) :
    (w.strikeOut n).seen < 2 ^ 64 := by
  apply Nat.lt_pow_two_of_testBit
  intro i hi
  have hsize : (w.marked n).size ≤ maxSize := by rwa [marked_size]
  show ((w.marked n).seen &&& (w.marked n).mask).testBit i = false
  rw [Nat.testBit_and, testBit_mask hsize, decide_eq_false, Bool.and_false]
  exact Nat.not_lt.mpr (Nat.le_trans hsize hi)

theorem highest_strikeOut {w : ReplayWindow} {m n : Nat} (h : (w.strikeOut n).highest = some m) :
    m = n ∨ w.highest = some m := by
  change (w.marked n).highest = some m at h
  unfold marked at h
  split at h
  · exact Or.inl (Option.some.inj h).symm
  · split at h
    · split at h
      · exact Or.inr h
      · exact Or.inr h
    · exact Or.inl (Option.some.inj h).symm

end ReplayWindow

namespace Context

variable {ctx : Context}

theorem Fits.perform (h : ctx.Fits) (call : Call) : (ctx.perform crypto call).2.Fits := by
  rw [after_perform]
  exact ⟨h.senderKey, h.recipientKey, h.commonIv, h.senderId, h.recipientId⟩

/-- A call takes a number only while there is one left, and strikes out only words. -/
theorem InRange.perform (h : ctx.InRange) (call : Call) :
    (ctx.perform crypto call).2.InRange where
  fits := h.fits.perform call
  sequenceNumber := by
    rw [sequenceNumber_after]
    split
    · next n hn =>
      obtain ⟨-, hle, -⟩ := sealing_of_number hn
      exact Nat.succ_le_succ hle
    · exact h.sequenceNumber
  size_pos := by
    rw [window_after]
    split
    · next id _ =>
      rw [ReplayWindow.strikeOut_size]
      exact h.size_pos
    · exact h.size_pos
  size_le := by
    rw [window_after]
    split
    · next id _ =>
      rw [ReplayWindow.strikeOut_size]
      exact h.size_le
    · exact h.size_le
  highest := by
    rw [window_after]
    split
    · next id _ =>
      intro n hn
      rcases ReplayWindow.highest_strikeOut hn with rfl | hold
      · exact id.sequenceNumber_lt
      · exact h.highest n hold
    · exact h.highest
  seen := by
    rw [window_after]
    split
    · next id _ => exact ReplayWindow.seen_strikeOut_lt h.size_le id.sequenceNumber
    · exact h.seen

theorem InRange.after (h : ctx.InRange) (calls : List Call) : (ctx.after crypto calls).InRange :=
  finalState_invariant (I := InRange) (fun call _ hctx => hctx.perform call) h calls

theorem performAll?_eq (h : ctx.InRange) (calls : List Call) :
    performAll? crypto calls ctx =
      some ((outcomes (perform crypto) ctx calls).map Prod.snd, ctx.after crypto calls) := by
  induction calls generalizing ctx with
  | nil => rfl
  | cons call calls ih =>
    unfold performAll?
    rw [perform?_eq h]
    show (performAll? crypto calls (ctx.perform crypto call).2).bind _ = _
    rw [ih (h.perform call)]
    rfl

/-! ### What encryption is given -/

theorem length_sealing (h : ctx.Fits) {call : Call} {s : Sealing}
    (hs : call.sealing? ctx = some s) : s.key.length = 16 ∧ s.nonce.length = 13 := by
  obtain ⟨hkey, ⟨_, _, _, hnonce, _⟩ | ⟨_, _, _, _, hnonce, _⟩ | ⟨_, _, _, hnonce, _⟩⟩ :=
    sealing_cases hs
  all_goals
    rw [hkey, hnonce]
    exact ⟨h.senderKey, length_nonce_of_fits h _ _⟩

theorem length_opening (h : ctx.Fits) {call : Call} {o : Opening}
    (ho : call.opening? ctx = some o) : o.key.length = 16 ∧ o.nonce.length = 13 := by
  cases call with
  | protectRequest request => cases ho
  | protectResponse response request reusePiv => cases ho
  | unprotectRequest packet =>
    obtain ⟨⟨o', id⟩, hrequest, rfl⟩ := Option.map_eq_some_iff.mp ho
    obtain ⟨-, -, hopening⟩ := requestOpening_eq_ok.mp (toOption_eq_some.mp hrequest)
    obtain ⟨-, rfl⟩ := opening_eq_ok.mp hopening
    exact ⟨h.recipientKey, length_nonce_of_fits h _ _⟩
  | unprotectResponse packet id =>
    obtain ⟨value, -, hopening⟩ := responseOpening_eq_ok.mp (toOption_eq_some.mp ho)
    obtain ⟨-, rfl⟩ := opening_eq_ok.mp hopening
    refine ⟨h.recipientKey, ?_⟩
    unfold responseNonce
    split
    · exact length_nonce_of_fits h _ _
    · exact length_nonce_of_fits h _ _

/-- Whatever calls are made on a derived context, with whatever packets and identifiers of requests,
every step of them stays in range, and so does every step of any further call; keys, nonces and
identifiers always have the lengths that encryption asks for. -/
theorem never_out_of_range {p : Parameters} (h : derive crypto p = .ok ctx) (calls : List Call) :
    performAll? crypto calls ctx =
        some ((outcomes (perform crypto) ctx calls).map Prod.snd, ctx.after crypto calls) ∧
      (ctx.after crypto calls).InRange ∧
      ∀ call,
        (ctx.after crypto calls).perform? crypto call =
          some ((ctx.after crypto calls).perform crypto call) ∧
        (∀ s, call.sealing? (ctx.after crypto calls) = some s →
          s.key.length = 16 ∧ s.nonce.length = 13) ∧
        ∀ o, call.opening? (ctx.after crypto calls) = some o →
          o.key.length = 16 ∧ o.nonce.length = 13 := by
  have hrange : ctx.InRange := inRange_of_derive h
  have hafter : (ctx.after crypto calls).InRange := hrange.after calls
  refine ⟨performAll?_eq hrange calls, hafter, ?_⟩
  intro call
  exact ⟨perform?_eq hafter call, fun s hs => length_sealing hafter.fits hs,
    fun o ho => length_opening hafter.fits ho⟩

/-- Identifier and vector are far longer than what fits into a nonce, and one option announces more
bytes than it has. -/
theorem never_out_of_range_oversized :
    let request : RequestId := ⟨List.replicate 300 0xFF, List.replicate 9 0xFF⟩
    let option := OptionValue.encode ⟨some request.kid, some request.piv⟩
    let message := Coap.Packet.ofCode (.request .get)
    let calls : List Call := [
      .protectRequest message,
      .unprotectRequest (outer message option []),
      .unprotectResponse (outer message [0x0F] []) request,
      .protectResponse message request true]
    ∃ ctx, derive TestVector.crypto TestVector.client = .ok ctx ∧
      ∃ results, performAll? TestVector.crypto calls ctx =
          some (results, ctx.after TestVector.crypto calls) ∧ results.length = 4 := by
  intro request option message calls
  obtain ⟨ctx, -, hctx, -, -⟩ := TestVector.derive_client
  obtain ⟨hall, -, -⟩ := never_out_of_range hctx calls
  exact ⟨ctx, hctx, _, hall, rfl⟩

end Context

end Oscore

end SecureCoap
