import RustdResolved.Wire.Record
import RustdResolved.Wire.Relocate

/-! # Records that move

The data of a record is checked within its bounds, and only its names are read elsewhere, after a
compression pointer. So a record whose octets move passes the same checks at its new place and reads
the same there, as long as what its names follow stays (`RecordAt.moved`). The TTL is the one
field that may be another one. -/

namespace RustdResolved.Wire.RelocateRecord

open Lib Result Loop Octets Name PacketHeader Record Relocate

variable {allowCompression : Bool} {k length limit offset result start stop start' : Nat}
  {packet packet' : Bytes} {state : Nat × Option Nat} {record : ResourceRecord}

theorem Steady.part {offsets : List Nat} (h : Steady packet packet' start start' offsets)
    (k : Nat) : Steady packet packet' (start + k) (start' + k) offsets := by
  intro i hi
  obtain ⟨hsame, hback⟩ := h i hi
  exact ⟨hsame, by omega⟩

theorem requireOffset_eq_ok :
    requireOffset offset length limit = .ok result ↔
      offset + length ≤ limit ∧ result = offset + length := by
  unfold requireOffset
  split_ifs with h
  · simp [h, eq_comm]
  · simp [h]

theorem requireExactEnd_eq_ok {actual expected : Nat} :
    requireExactEnd actual expected = .ok () ↔ actual = expected := by
  unfold requireExactEnd
  split_ifs with h <;> simp [h]

/-! ### Names without compression -/

theorem validateUncompressedNameBody_ok {state : Nat × Nat} {flow : LoopFlow Unit (Nat × Nat)}
    (h : validateUncompressedNameBody packet limit state = .ok flow) :
    (packet[state.1]? = some 0 ∧ state.1 < limit ∧ flow = .done ()) ∨
      ∃ length : UInt8, packet[state.1]? = some length ∧ length ≠ 0 ∧ length ≤ 63 ∧
        state.2 + (length.toNat + 1) ≤ 255 ∧ state.1 + (length.toNat + 1) ≤ limit ∧
        flow = .again (state.1 + (length.toNat + 1), state.2 + (length.toNat + 1)) := by
  obtain ⟨length, hlength, h⟩ := of_bind h
  rw [getOr_eq_ok] at hlength
  split_ifs at h with hzero hlimit hbad hlong
  · cases h
    exact Or.inl ⟨by rw [hlength, hzero], hlimit, rfl⟩
  · obtain ⟨offset, hoffset, h⟩ := of_bind h
    obtain ⟨hle, rfl⟩ := requireOffset_eq_ok.mp hoffset
    cases h
    rw [not_or, not_lt] at hbad
    exact Or.inr ⟨length, hlength, hzero, hbad.2, by omega, hle, rfl⟩

/-- A name without compression follows nothing. -/
theorem followedFrom_of_uncompressed {rounds fuel : Nat} {state : Nat × Nat}
    (h : loop .outOfFuel (validateUncompressedNameBody packet limit) rounds state = .ok ()) :
    followedFrom packet fuel state.1 = [] := by
  induction rounds generalizing fuel state with
  | zero => cases h
  | succ rounds ih =>
    cases fuel with
    | zero => rfl
    | succ fuel =>
      obtain ⟨_, hbody, hrest⟩ := of_bind h
      rcases validateUncompressedNameBody_ok hbody with ⟨hroot, -, -⟩ |
        ⟨length, hlength, hsome, hshort, -, -, rfl⟩
      · simp [followedFrom, hroot]
      · have hplain := short_not_pointer hshort
        have hnext : followedFrom packet fuel (state.1 + (length.toNat + 1)) = [] := ih hrest
        simp only [followedFrom, hlength, if_neg hsome, hplain]
        rw [if_neg (by decide), ← hnext]
        congr 1
        omega

theorem followed_of_uncompressed (h : validateUncompressedName packet offset limit = .ok ()) :
    followed packet offset = [] :=
  followedFrom_of_uncompressed h

/-! ### Data that moves -/

theorem readCharacterString_lt {text : Bool}
    (h : readCharacterString packet offset limit text = .ok result) : offset < result := by
  obtain ⟨count, -, h⟩ := of_bind h
  obtain ⟨content, hcontent, h⟩ := of_bind h
  obtain ⟨stop, hstop, h⟩ := of_bind h
  obtain ⟨-, rfl⟩ := requireOffset_eq_ok.mp hcontent
  obtain ⟨-, rfl⟩ := requireOffset_eq_ok.mp hstop
  split_ifs at h
  · obtain ⟨bytes, -, h⟩ := of_bind h
    split_ifs at h
    cases h
    omega
  · cases h
    omega

theorem typeWindowEnd_lt (h : typeWindowEnd packet stop offset = .ok result) : offset < result := by
  obtain ⟨headerEnd, hheader, h⟩ := of_bind h
  obtain ⟨count, -, h⟩ := of_bind h
  obtain ⟨-, rfl⟩ := requireOffset_eq_ok.mp hheader
  split_ifs at h
  obtain ⟨windowEnd, hwindow, h⟩ := of_bind h
  obtain ⟨-, rfl⟩ := requireOffset_eq_ok.mp hwindow
  obtain ⟨last, -, h⟩ := of_bind h
  split_ifs at h
  cases h
  omega

theorem validateSvcbBody_again {next : Nat × Option Nat} :
    validateSvcbBody packet stop state = .ok (.again next) ↔
      ∃ key count value, readU16 packet state.1 = .ok key ∧ state.2.any (· ≥ key) = false ∧
        readU16 packet (state.1 + 2) = .ok count ∧ state.1 + 4 + count ≤ stop ∧
        getRange packet (state.1 + 4) (state.1 + 4 + count) = some value ∧
        validateSvcParam key value = .ok () ∧ next = (state.1 + 4 + count, some key) := by
  have hindex : ∀ {start stop : Nat} {value : Bytes},
      indexRange packet start stop = .ok value ↔ getRange packet start stop = some value := by
    intro start stop value
    unfold indexRange
    cases getRange packet start stop <;> simp
  unfold validateSvcbBody
  constructor
  · intro h
    split_ifs at h with hlt
    · obtain ⟨headerEnd, hheader, h⟩ := of_bind h
      obtain ⟨key, hkey, h⟩ := of_bind h
      split_ifs at h with horder
      obtain ⟨count, hcount, h⟩ := of_bind h
      obtain ⟨valueEnd, hend, h⟩ := of_bind h
      obtain ⟨value, hvalue, h⟩ := of_bind h
      obtain ⟨_, hparam, hflow⟩ := of_bind h
      obtain ⟨-, rfl⟩ := requireOffset_eq_ok.mp hheader
      obtain ⟨hfits, rfl⟩ := requireOffset_eq_ok.mp hend
      cases hflow
      exact ⟨key, count, value,
        hkey, by simpa using horder, hcount, hfits, hindex.mp hvalue, hparam, rfl⟩
    · cases h
  · rintro ⟨key, count, value, hkey, horder, hcount, hfits, hvalue, hparam, rfl⟩
    rw [if_pos (by omega), requireOffset_eq_ok.mpr ⟨by omega, rfl⟩]
    simp only [bind, Except.bind, hkey, horder, Bool.false_eq_true, if_false, hcount]
    rw [requireOffset_eq_ok.mpr ⟨hfits, rfl⟩]
    simp only [hindex.mpr hvalue, hparam]

theorem validateSvcbBody_done :
    validateSvcbBody packet stop state = .ok (.done result) ↔ stop ≤ state.1 ∧
      result = state.1 := by
  unfold validateSvcbBody
  split_ifs with hlt
  · refine iff_of_false (fun h => ?_) (by omega)
    obtain ⟨_, -, h⟩ := of_bind h
    obtain ⟨_, -, h⟩ := of_bind h
    split_ifs at h
    obtain ⟨_, -, h⟩ := of_bind h
    obtain ⟨_, -, h⟩ := of_bind h
    obtain ⟨_, -, h⟩ := of_bind h
    obtain ⟨_, -, h⟩ := of_bind h
    cases h
  · simp [not_lt.mp hlt, eq_comm]

theorem readBoundedName_readName (h : readBoundedName packet offset limit true = .ok result) :
    ∃ name, readName packet offset = .ok (name, result) := by
  unfold readBoundedName at h
  simp only [if_true] at h
  obtain ⟨-, -, h⟩ := of_bind h
  obtain ⟨⟨name, stop⟩, hname, h⟩ := of_bind h
  split_ifs at h
  cases h
  exact ⟨name, hname⟩

theorem le_of_requireOffset {α : Type} {f : Nat → Except WireError α} {value : α}
    (h : requireOffset offset length limit >>= f = .ok value) : offset + length ≤ limit := by
  obtain ⟨_, h, -⟩ := of_bind h
  exact (requireOffset_eq_ok.mp h).1

theorem steady_nil {packet : Bytes} {start : Nat} :
    Steady packet packet' start start' [] := fun _ hi => nomatch hi

section

variable {a a' start' : Nat} {packet' : Bytes} (hmoved : Moved packet packet' start start' length)

include hmoved

theorem requireOffset_moved (h : hmoved.Place a a') (count : Nat) :
    Carries hmoved.Place (requireOffset a count (start + length))
      (requireOffset a' count (start' + length)) := by
  obtain ⟨k, -, rfl, rfl⟩ := h
  intro result hresult
  obtain ⟨hle, rfl⟩ := requireOffset_eq_ok.mp hresult
  exact ⟨_, requireOffset_eq_ok.mpr ⟨by omega, rfl⟩, k + count, by omega, by omega, by omega⟩

theorem requireExactEnd_moved (h : hmoved.Place a a') :
    Carries Eq (requireExactEnd a (start + length)) (requireExactEnd a' (start' + length)) := by
  obtain ⟨k, -, rfl, rfl⟩ := h
  intro _ hend
  rw [requireExactEnd_eq_ok] at hend
  exact ⟨(), requireExactEnd_eq_ok.mpr (by omega), rfl⟩

/-- An octet that is read before its bound is checked. -/
theorem getOr_moved {α : Type} {R : α → α → Prop} {f g : UInt8 → Except WireError α}
    {error : WireError} (h : hmoved.Place a a')
    (hbound : ∀ byte value, f byte = .ok value → a + 1 ≤ start + length)
    (hnext : ∀ byte, Carries R (f byte) (g byte)) :
    Carries R (getOr error packet a >>= f) (getOr error packet' a' >>= g) := by
  obtain ⟨k, -, rfl, rfl⟩ := h
  intro value hvalue
  obtain ⟨byte, hbyte, hvalue⟩ := of_bind hvalue
  have hlt := hbound byte value hvalue
  obtain ⟨value', hvalue', hrelated⟩ := hnext byte value hvalue
  exact ⟨value', bind_eq_ok.mpr ⟨byte, (hmoved.getOr (by omega) error).trans hbyte, hvalue'⟩,
    hrelated⟩

theorem advanceUntil_moved {advance advance' : Nat → Except WireError Nat} (h : hmoved.Place a a')
    (hgrow : ∀ offset next, advance' offset = .ok next → offset < next)
    (hadvance : ∀ a a', hmoved.Place a a' → Carries hmoved.Place (advance a) (advance' a')) :
    Carries hmoved.Place (advanceUntil (start + length) advance a)
      (advanceUntil (start' + length) advance' a') := by
  intro result hresult
  have hround : ∀ (fuel s s' : Nat), hmoved.Place s s' →
      Carries (FlowCarries hmoved.Place hmoved.Place)
      (if s < start + length then do
        let next ← advance s
        .ok (.again next)
      else .ok (.done s))
      (if s' < start' + length then do
        let next ← advance' s'
        .ok (.again next)
      else .ok (.done s')) := fun _ s s' hs =>
    Carries.ite (by obtain ⟨k, -, rfl, rfl⟩ := hs; omega)
      (fun _ => (hadvance s s' hs).bind fun _ _ _ hnext => carries_ok (.again hnext))
      fun _ => carries_ok (.done hs)
  obtain ⟨result', hloop, hplace⟩ := loop_carries (fun _ => hmoved.Place) _ hround h result hresult
  refine ⟨result', loop_ok_fuel (fun offset => start' + length - offset) ?_ ?_ hloop, hplace⟩
  · intro s s' hbody
    split_ifs at hbody with hlt
    · obtain ⟨next, hnext, hflow⟩ := of_bind hbody
      cases hflow
      have := hgrow s s' hnext
      omega
    · cases hbody
  · omega

theorem validateUncompressedName_moved (h : hmoved.Place a a') :
    Carries Eq (validateUncompressedName packet a (start + length))
      (validateUncompressedName packet' a' (start' + length)) := by
  refine loop_carries (fun _ s s' => hmoved.Place s.1 s'.1 ∧ s'.2 = s.2) Eq ?_ ⟨h, rfl⟩
  rintro - s ⟨offset', _⟩ ⟨⟨k, hk, hs, hs'⟩, rfl⟩ flow hbody
  subst hs'
  rcases validateUncompressedNameBody_ok hbody with ⟨hroot, hlimit, rfl⟩ |
    ⟨first, hfirst, hsome, hshort, hfits, hlimit, rfl⟩
  · rw [hs] at hroot hlimit
    refine ⟨.done (), ?_, .done rfl⟩
    unfold validateUncompressedNameBody
    rw [getOr_eq_ok.mpr ((hmoved.same k (by omega)).trans hroot)]
    simp only [ok_bind, if_true]
    rw [if_pos (by omega)]
  · rw [hs] at hfirst hlimit
    have hplain := short_not_pointer hshort
    refine ⟨.again (start' + k + (first.toNat + 1), s.2 + (first.toNat + 1)), ?_, .again
      ⟨⟨k + (first.toNat + 1), by omega, by dsimp only; omega, by dsimp only; omega⟩, rfl⟩⟩
    unfold validateUncompressedNameBody
    rw [getOr_eq_ok.mpr ((hmoved.same k (by omega)).trans hfirst)]
    simp only [bind, Except.bind, if_neg hsome]
    rw [if_neg (by simp [hplain, hshort]), if_neg (by omega),
      requireOffset_eq_ok.mpr ⟨by omega, rfl⟩]

/-- A name in the middle of octets that move. -/
theorem readName_within {name : DnsName} (h : readName packet (start + k) = .ok (name, stop))
    (hstop : stop ≤ start + length)
    (hsteady : Steady packet packet' start start' (followed packet (start + k))) :
    ∃ j, k < j ∧ j ≤ length ∧ stop = start + j ∧
      readName packet' (start' + k) = .ok (name, start' + j) := by
  have hlt := (readName_lt h).1
  obtain ⟨j, rfl⟩ : ∃ j, stop = start + k + j := ⟨stop - (start + k), by omega⟩
  have hname' := readName_moved h (hmoved.part (by omega)) (Steady.part hsteady k)
  rw [Nat.add_assoc] at hname'
  exact ⟨k + j, by omega, by omega, by omega, hname'⟩

theorem readBoundedName_moved (h : hmoved.Place a a')
    (hsteady : allowCompression = true → Steady packet packet' start start' (followed packet a)) :
    Carries hmoved.Place (readBoundedName packet a (start + length) allowCompression)
      (readBoundedName packet' a' (start' + length) allowCompression) := by
  have hsteps : ∀ packet offset limit, readBoundedName packet offset limit allowCompression =
      (if allowCompression then .ok () else validateUncompressedName packet offset limit) >>=
        fun _ => readName packet offset >>= fun read =>
          if read.2 ≤ limit then .ok read.2 else .error .invalidRecord := by
    intro packet offset limit
    cases allowCompression <;> rfl
  intro stop hstop
  rw [hsteps] at hstop ⊢
  obtain ⟨_, hplain, hstop⟩ := of_bind hstop
  obtain ⟨⟨name, next⟩, hname, hstop⟩ := of_bind hstop
  split_ifs at hstop with hle
  cases hstop
  have hchecked : Steady packet packet' start start' (followed packet a) ∧
      (if allowCompression then .ok () else validateUncompressedName packet' a' (start' + length)) =
        .ok () := by
    cases allowCompression with
    | true => exact ⟨hsteady rfl, rfl⟩
    | false =>
      have hplain := hplain
      exact ⟨followed_of_uncompressed hplain ▸ steady_nil,
        (validateUncompressedName_moved hmoved h).eq hplain⟩
  obtain ⟨k, -, rfl, rfl⟩ := h
  obtain ⟨j, -, hj, rfl, hname'⟩ := readName_within hmoved hname hle hchecked.1
  refine ⟨_, bind_eq_ok.mpr ⟨(), hchecked.2, bind_eq_ok.mpr ⟨_, hname', ?_⟩⟩, j, hj, rfl, rfl⟩
  rw [if_pos (by omega)]

theorem requireNameEnd_moved (h : hmoved.Place a a')
    (hsteady : allowCompression = true → Steady packet packet' start start' (followed packet a)) :
    Carries Eq (requireNameEnd packet a (start + length) allowCompression)
      (requireNameEnd packet' a' (start' + length) allowCompression) :=
  (readBoundedName_moved hmoved h hsteady).bind fun _ _ _ => requireExactEnd_moved hmoved

theorem readCharacterString_moved {text : Bool} (h : hmoved.Place a a') :
    Carries hmoved.Place (readCharacterString packet a (start + length) text)
      (readCharacterString packet' a' (start' + length) text) := by
  refine getOr_moved _ h (fun _ _ => le_of_requireOffset) fun count => ?_
  refine (requireOffset_moved hmoved h 1).bind fun content content' _ hcontent => ?_
  refine (requireOffset_moved hmoved hcontent _).bind fun stop stop' _ hstop => ?_
  refine Carries.ite Iff.rfl (fun _ => ?_) fun _ => carries_ok hstop
  have hbytes : getRangeOr .shortPacket packet' content' stop' =
      getRangeOr .shortPacket packet content stop := by
    obtain ⟨i, -, rfl, rfl⟩ := hcontent
    obtain ⟨j, hj, rfl, rfl⟩ := hstop
    exact hmoved.getRangeOr hj _
  refine (Carries.of_eq hbytes).bind fun bytes _ _ hsame => ?_
  subst hsame
  exact Carries.ite Iff.rfl (fun _ => carries_error _) fun _ => carries_ok hstop

theorem validateCharacterStringList_moved :
    Carries Eq (validateCharacterStringList packet start (start + length))
      (validateCharacterStringList packet' start' (start' + length)) := by
  refine (advanceUntil_moved hmoved hmoved.place_start (fun _ _ => readCharacterString_lt)
    fun _ _ => readCharacterString_moved hmoved).bind fun _ _ _ => requireExactEnd_moved hmoved

theorem typeWindowEnd_moved (h : hmoved.Place a a') :
    Carries hmoved.Place (typeWindowEnd packet (start + length) a)
      (typeWindowEnd packet' (start' + length) a') := by
  refine (requireOffset_moved hmoved h 2).bind fun headerEnd headerEnd' hfits hheader => ?_
  have hcount : index packet' (a' + 1) = index packet (a + 1) := by
    obtain ⟨k, -, rfl, rfl⟩ := h
    have hle := (requireOffset_eq_ok.mp hfits).1
    exact hmoved.getOr (show k + 1 < length by omega) .panic
  refine (Carries.of_eq hcount).bind fun count _ _ hsame => ?_
  subst hsame
  refine Carries.ite Iff.rfl (fun _ => carries_error _) fun hbad => ?_
  refine (requireOffset_moved hmoved hheader _).bind fun stop stop' hwindow hstop => ?_
  have hlast : index packet' (stop' - 1) = index packet (stop - 1) := by
    obtain ⟨k, -, rfl, rfl⟩ := h
    obtain ⟨j, hj, rfl, rfl⟩ := hstop
    have hheader := (requireOffset_eq_ok.mp hfits).2
    have hend := (requireOffset_eq_ok.mp hwindow).2
    rw [Nat.add_sub_assoc (by omega), Nat.add_sub_assoc (by omega)]
    exact hmoved.getOr (show j - 1 < length by omega) .panic
  refine (Carries.of_eq hlast).bind fun last _ _ hsame => ?_
  subst hsame
  exact Carries.ite Iff.rfl (fun _ => carries_error _) fun _ => carries_ok hstop

theorem validateTypeWindows_moved (h : hmoved.Place a a') :
    Carries Eq (validateTypeWindows packet a (start + length))
      (validateTypeWindows packet' a' (start' + length)) :=
  (advanceUntil_moved hmoved h (fun _ _ => typeWindowEnd_lt) fun _ _ =>
    typeWindowEnd_moved hmoved).bind fun _ _ _ => requireExactEnd_moved hmoved

theorem validateRrsig_moved : Carries Eq (validateRrsig packet start (start + length))
    (validateRrsig packet' start' (start' + length)) := by
  refine (requireOffset_moved hmoved hmoved.place_start 18).bind fun _ _ _ hname => ?_
  refine (readBoundedName_moved hmoved hname (by simp)).bind fun _ _ _ hend => ?_
  obtain ⟨k, -, rfl, rfl⟩ := hend
  exact Carries.ite (by omega) (fun _ => carries_ok rfl) fun _ => carries_error _

theorem validateNsec_moved : Carries Eq (validateNsec packet start (start + length))
    (validateNsec packet' start' (start' + length)) :=
  (readBoundedName_moved hmoved hmoved.place_start (by simp)).bind fun _ _ _ =>
    validateTypeWindows_moved hmoved

theorem validateNsec3_moved : Carries Eq (validateNsec3 packet start (start + length))
    (validateNsec3 packet' start' (start' + length)) := by
  refine (requireOffset_moved hmoved hmoved.place_start 4).bind fun _ _ _ hsalt => ?_
  refine getOr_moved _ hsalt (fun _ _ => le_of_requireOffset) fun saltLength => ?_
  refine (requireOffset_moved hmoved hsalt 1).bind fun _ _ _ hsalt => ?_
  refine (requireOffset_moved hmoved hsalt _).bind fun _ _ _ hhash => ?_
  refine getOr_moved _ hhash (fun hashLength _ h => ?_) fun hashLength => ?_
  · split_ifs at h
    exact le_of_requireOffset h
  · refine Carries.ite Iff.rfl (fun _ => carries_error _) fun _ => ?_
    refine (requireOffset_moved hmoved hhash 1).bind fun _ _ _ hhash => ?_
    exact (requireOffset_moved hmoved hhash _).bind fun _ _ _ => validateTypeWindows_moved hmoved

theorem validateNsec3param_moved : Carries Eq (validateNsec3param packet start (start + length))
    (validateNsec3param packet' start' (start' + length)) := by
  refine (requireOffset_moved hmoved hmoved.place_start 4).bind fun _ _ _ hsalt => ?_
  refine getOr_moved _ hsalt (fun saltLength _ h => ?_) fun saltLength => ?_
  · have := le_of_requireOffset h
    omega
  · exact (requireOffset_moved hmoved hsalt _).bind fun _ _ _ => requireExactEnd_moved hmoved

theorem validateCaa_moved : Carries Eq (validateCaa packet start (start + length))
    (validateCaa packet' start' (start' + length)) := by
  refine (requireOffset_moved hmoved hmoved.place_start 1).bind fun _ _ _ htag => ?_
  refine (readCharacterString_moved hmoved htag).bind fun _ _ _ hvalue => ?_
  obtain ⟨k, -, rfl, rfl⟩ := hvalue
  exact Carries.ite (by omega) (fun _ => carries_ok rfl) fun _ => carries_error _

theorem validateNaptr_moved : Carries Eq (validateNaptr packet start (start + length))
    (validateNaptr packet' start' (start' + length)) := by
  refine (requireOffset_moved hmoved hmoved.place_start 4).bind fun _ _ _ hflags => ?_
  refine (readCharacterString_moved hmoved hflags).bind fun _ _ _ hservices => ?_
  refine (readCharacterString_moved hmoved hservices).bind fun _ _ _ hpattern => ?_
  refine (readCharacterString_moved hmoved hpattern).bind fun _ _ _ hreplacement => ?_
  exact requireNameEnd_moved hmoved hreplacement (by simp)

theorem validateHinfo_moved : Carries Eq (validateHinfo packet start (start + length))
    (validateHinfo packet' start' (start' + length)) := by
  refine (readCharacterString_moved hmoved hmoved.place_start).bind fun _ _ _ hos => ?_
  exact (readCharacterString_moved hmoved hos).bind fun _ _ _ => requireExactEnd_moved hmoved

theorem validateSvcbBody_moved {s s' : Nat × Option Nat} (hplace : hmoved.Place s.1 s'.1)
    (hlast : s'.2 = s.2) :
    Carries (FlowCarries hmoved.Place
        fun t t' => hmoved.Place t.1 t'.1 ∧ t'.2 = t.2)
      (validateSvcbBody packet (start + length) s)
        (validateSvcbBody packet' (start' + length) s') := by
  obtain ⟨k, hk, hs, hs'⟩ := hplace
  rintro (result | t) h
  · obtain ⟨hout, rfl⟩ := validateSvcbBody_done.mp h
    exact ⟨.done s'.1, validateSvcbBody_done.mpr ⟨by omega, rfl⟩, .done ⟨k, hk, hs, hs'⟩⟩
  · obtain ⟨key, count, value, hkey, horder, hcount, hend, hvalue, hparam, rfl⟩ :=
      validateSvcbBody_again.mp h
    rw [hs] at hkey hcount hend hvalue
    have hcount' := hmoved.readU16 (show k + 2 + 2 ≤ length by omega)
    have hvalue' := hmoved.getRange (show k + 4 + count ≤ length by omega) (i := k + 4)
    simp only [← Nat.add_assoc] at hcount' hvalue'
    refine ⟨.again (start' + k + 4 + count, some key), validateSvcbBody_again.mpr ?_, .again
      ⟨⟨k + 4 + count, by omega, by dsimp only; omega, by dsimp only; omega⟩, rfl⟩⟩
    rw [hs', hlast]
    exact ⟨key, count, value, (hmoved.readU16 (by omega)).trans hkey, horder, hcount'.trans hcount,
      by omega, hvalue'.trans hvalue, hparam, rfl⟩

theorem validateSvcb_moved : Carries Eq (validateSvcb packet start (start + length))
    (validateSvcb packet' start' (start' + length)) := by
  refine (requireOffset_moved hmoved hmoved.place_start 2).bind fun _ _ _ htarget => ?_
  refine (readBoundedName_moved hmoved htarget (by simp)).bind fun offset offset' _ hname => ?_
  refine Carries.bind (R := hmoved.Place) (fun stop hstop => ?_) fun _ _ _ =>
    requireExactEnd_moved hmoved
  obtain ⟨stop', hloop, hplace⟩ := loop_carries
    (fun _ (t t' : Nat × Option Nat) => hmoved.Place t.1 t'.1 ∧ t'.2 = t.2) hmoved.Place
    (fun _ _ _ h => validateSvcbBody_moved hmoved h.1 h.2)
    (show _ ∧ (offset', none).2 = (offset, none).2 from ⟨hname, rfl⟩) stop hstop
  refine ⟨stop', loop_ok_fuel (fun s => start' + length - s.1) (fun s s' hbody => ?_) ?_ hloop,
    hplace⟩
  · obtain ⟨key, count, value, -, -, -, hfits, -, -, rfl⟩ := validateSvcbBody_again.mp hbody
    omega
  · dsimp only
    omega

theorem validateSoa_moved (hfirst : Steady packet packet' start start' (followed packet start))
    (hsecond : ∀ name next, readName packet start = .ok (name, next) →
      Steady packet packet' start start' (followed packet next)) :
    Carries Eq (validateSoa packet start (start + length) true)
      (validateSoa packet' start' (start' + length) true) := by
  refine (readBoundedName_moved hmoved hmoved.place_start fun _ => hfirst).bind
    fun _ _ hmname hrname => ?_
  obtain ⟨name, hread⟩ := readBoundedName_readName hmname
  refine (readBoundedName_moved hmoved hrname fun _ => hsecond _ _ hread).bind fun _ _ _ hfixed =>
    ?_
  exact (requireOffset_moved hmoved hfixed 20).bind fun _ _ _ => requireExactEnd_moved hmoved

theorem validatePrefixedName_moved {skip : Nat}
    (hsteady : Steady packet packet' start start' (followed packet (start + skip))) :
    Carries Eq (validatePrefixedName packet start skip (start + length) allowCompression)
      (validatePrefixedName packet' start' skip (start' + length) allowCompression) := by
  refine (requireOffset_moved hmoved hmoved.place_start skip).bind fun offset _ hoffset hname => ?_
  obtain ⟨-, rfl⟩ := requireOffset_eq_ok.mp hoffset
  exact requireNameEnd_moved hmoved hname fun _ => hsteady

end

/-! ### One record -/

/-- The offset after the name at `offset`, where a second name stands. -/
def secondName (packet : Bytes) (offset : Nat) : List Nat :=
  match readName packet offset with
  | .ok (_, next) => [next]
  | .error _ => []

/-- The offsets of the names in the data of a record that may be compressed. -/
def rdataNames (packet : Bytes) (record : ResourceRecord) : List Nat :=
  let start := record.rdataOffset
  match record.rrType with
  | 2 | 3 | 4 | 5 | 7 | 8 | 9 | 12 | 23 | 30 | 39 => [start]
  | 6 | 14 | 17 => start :: secondName packet start
  | 15 | 18 | 21 | 36 | 107 => [start + 2]
  | 24 => [start + 18]
  | 26 => (start + 2) :: secondName packet (start + 2)
  | 33 => [start + 6]
  | _ => []

theorem mem_secondName {next : Nat} {name : DnsName}
    (h : readName packet offset = .ok (name, next)) : next ∈ secondName packet offset := by
  simp [secondName, h]

structure SameData (packet packet' : Bytes) (record record' : ResourceRecord) : Prop where
  rrType : record'.rrType = record.rrType
  rdata : record'.rdata = record.rdata
  nextOffset : record.nextOffset = record.rdataOffset + record.rdata.length
  nextOffset' : record'.nextOffset = record'.rdataOffset + record.rdata.length
  moved : Moved packet packet' record.rdataOffset record'.rdataOffset record.rdata.length
  steady : ∀ offset ∈ rdataNames packet record,
    Steady packet packet' record.rdataOffset record'.rdataOffset (followed packet offset)

theorem validateRecordRdata_moved {record' : ResourceRecord}
    (hsame : SameData packet packet' record record')
    (h : validateRecordRdata packet record = .ok ()) :
    validateRecordRdata packet' record' = .ok () := by
  obtain ⟨htype, hrdata, hnext, hnext', hmoved, hsteady⟩ := hsame
  simp only [validateRecordRdata, rdataNames, requireRdataLength, requireMinimumRdataLength,
    validateLoc, htype, hrdata, hnext, hnext'] at h hsteady ⊢
  -- one case for each type: the checks of the types without names only read the data
  split at h <;> simp_all only [List.mem_cons, forall_eq_or_imp] <;> first
    | exact (requireNameEnd_moved hmoved hmoved.place_start fun _ => hsteady.1).eq h
    | exact (validateSoa_moved hmoved hsteady.1 fun _ _ hname =>
        hsteady.2 _ (mem_secondName hname)).eq h
    | exact (validatePrefixedName_moved hmoved hsteady.1).eq h
    | exact (validateHinfo_moved hmoved).eq h
    | exact (validateCharacterStringList_moved hmoved).eq h
    | exact (validateNaptr_moved hmoved).eq h
    | exact (validateRrsig_moved hmoved).eq h
    | exact (validateNsec_moved hmoved).eq h
    | exact (validateNsec3_moved hmoved).eq h
    | exact (validateNsec3param_moved hmoved).eq h
    | exact (validateSvcb_moved hmoved).eq h
    | exact (validateCaa_moved hmoved).eq h

structure RecordAt (packet : Bytes) (start nameEnd rawTtl : Nat) (record : ResourceRecord) :
    Prop where
  name : readName packet start = .ok (record.name, nameEnd)
  rrType : readU16 packet nameEnd = .ok record.rrType
  rrClass : readU16 packet (nameEnd + 2) = .ok record.rrClass
  allowed : ¬ (record.rrClass = classAny ∨ record.rrType = typeIxfr ∨ record.rrType = typeAxfr ∨
    record.rrType = typeAny)
  ttlField : readU32 packet (nameEnd + 4) = .ok rawTtl
  rdataLength : readU16 packet (nameEnd + 8) = .ok record.rdata.length
  rdata : getRange packet (nameEnd + 10) (nameEnd + 10 + record.rdata.length) = some record.rdata
  valid : validateRecordRdata packet record = .ok ()
  ttl : record.ttl = recordTtl record.rrType rawTtl
  ttlOffset : record.ttlOffset = nameEnd + 4
  rdataOffset : record.rdataOffset = nameEnd + 10
  nextOffset : record.nextOffset = nameEnd + 10 + record.rdata.length

theorem parseRecord_eq_ok :
    parseRecord packet start = .ok record ↔
      ∃ nameEnd rawTtl, RecordAt packet start nameEnd rawTtl record := by
  constructor
  · intro h
    obtain ⟨⟨name, nameEnd⟩, hname, h⟩ := of_bind h
    obtain ⟨rrType, hrrType, h⟩ := of_bind h
    obtain ⟨rrClass, hrrClass, h⟩ := of_bind h
    split_ifs at h with hallowed
    obtain ⟨rawTtl, hrawTtl, h⟩ := of_bind h
    obtain ⟨rdataLength, hrdataLength, h⟩ := of_bind h
    obtain ⟨nextOffset, hnextOffset, h⟩ := of_bind h
    obtain ⟨rdata, hrdata, h⟩ := of_bind h
    obtain ⟨_, hvalid, hrecord⟩ := of_bind h
    cases hnextOffset
    cases hrecord
    rw [getRangeOr_eq_ok] at hrdata
    have hlength : rdata.length = rdataLength := by
      rw [length_of_getRange hrdata]
      omega
    subst hlength
    exact ⟨nameEnd, rawTtl, hname, hrrType, hrrClass, hallowed, hrawTtl, hrdataLength, hrdata,
      hvalid, rfl, rfl, rfl, rfl⟩
  · rintro ⟨nameEnd, rawTtl, h⟩
    have hrecord : (⟨record.name, record.rrType, record.rrClass, recordTtl record.rrType rawTtl,
        nameEnd + 4, nameEnd + 10, record.rdata, nameEnd + 10 + record.rdata.length⟩ :
        ResourceRecord) = record := by
      rw [← h.nextOffset, ← h.rdataOffset, ← h.ttlOffset, ← h.ttl]
    unfold parseRecord checkedEnd
    simp only [ok_bind, h.name, h.rrType, h.rrClass, if_neg h.allowed, h.ttlField,
      h.rdataLength, getRangeOr_eq_ok.mpr h.rdata, hrecord, h.valid]

/-- A record at another place, with another TTL. -/
def movedRecord (start start' rawTtl : Nat) (record : ResourceRecord) : ResourceRecord :=
  { record with
    ttl := recordTtl record.rrType rawTtl
    ttlOffset := start' + (record.ttlOffset - start)
    rdataOffset := start' + (record.rdataOffset - start)
    nextOffset := start' + (record.nextOffset - start) }

section

variable {packet' : Bytes} {start' nameLength rawTtl : Nat} {record : ResourceRecord}

/-- **A record that moves reads the same**, apart from its TTL. -/
theorem RecordAt.moved (h : RecordAt packet (start + k) (start + k + nameLength) rawTtl record)
    {rawTtl' : Nat} (hbefore : Moved packet packet' (start + k) (start' + k) (nameLength + 4))
    (httl : readU32 packet' (start' + k + nameLength + 4) = .ok rawTtl')
    (hafter : Moved packet packet' (start + k + nameLength + 8) (start' + k + nameLength + 8)
      (2 + record.rdata.length))
    (howner : Steady packet packet' start start' (followed packet (start + k)))
    (hdata : ∀ offset ∈ rdataNames packet record,
      Steady packet packet' start start' (followed packet offset)) :
    RecordAt packet' (start' + k) (start' + k + nameLength) rawTtl'
        (movedRecord start start' rawTtl' record) ∧
      SameData packet packet' record (movedRecord start start' rawTtl' record) := by
  have hoffsets : start' + (record.rdataOffset - start) = start' + k + nameLength + 10 := by
    rw [h.rdataOffset]
    omega
  have hnext : start' + (record.nextOffset - start) =
      start' + k + nameLength + 10 + record.rdata.length := by
    rw [h.nextOffset]
    omega
  have hsame : SameData packet packet' record (movedRecord start start' rawTtl' record) := by
    refine ⟨rfl, rfl, by rw [h.nextOffset, h.rdataOffset], hnext.trans ?_, ?_, ?_⟩
    · rw [← hoffsets]
      rfl
    · rw [show (movedRecord start start' rawTtl' record).rdataOffset =
          start' + k + nameLength + 8 + 2 from hoffsets, h.rdataOffset]
      exact hafter.part (le_refl _)
    · intro offset hoffset
      rw [show (movedRecord start start' rawTtl' record).rdataOffset =
          start' + (k + nameLength + 10) by rw [← Nat.add_assoc, ← Nat.add_assoc]; exact hoffsets,
        h.rdataOffset, Nat.add_assoc start, Nat.add_assoc start]
      exact Steady.part (hdata offset hoffset) _
  refine ⟨⟨?_, ?_, ?_, h.allowed, httl, ?_, ?_, validateRecordRdata_moved hsame h.valid, rfl, ?_,
    ?_, hnext⟩, hsame⟩
  · exact readName_moved h.name (hbefore.part (show 0 + nameLength ≤ _ by omega))
      (Steady.part howner k)
  · exact (hbefore.readU16 (by omega)).trans h.rrType
  · have := hbefore.readU16 (show nameLength + 2 + 2 ≤ _ by omega)
    exact this.trans h.rrClass
  · exact (hafter.readU16 (k := 0) (by omega)).trans h.rdataLength
  · have := hafter.getRange (i := 2) (j := 2 + record.rdata.length) (le_refl _)
    simp only [← Nat.add_assoc] at this
    exact this.trans h.rdata
  · simp only [movedRecord, h.ttlOffset]
    omega
  · exact hoffsets

end

end RustdResolved.Wire.RelocateRecord
