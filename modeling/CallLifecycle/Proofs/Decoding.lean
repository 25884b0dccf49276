/-
Snapshots, addresses and routes go by their members.

What is to be written for each of the three is a table: the names of its fields, and the format of
each.  The table stands apart from the fields that are read, and each field is shown to follow its
entry.  The records are orderly: their fields have different names, they go by values and not by
texts, and they change parts of the record that have nothing to do with each other.  What follows
holds of every object, in any of its spellings.
-/
import CallLifecycle.Proofs.Admission
import CallLifecycle.Written

namespace CallLifecycle

open Json

namespace Json

/-! ### Fields that set one part of a record -/

namespace Field

variable {ρ α β : Type} {name name' : String} {format : Format α} {format' : Format β}
  {get : ρ → α} {get' : ρ → β} {set : α → ρ → ρ} {set' : β → ρ → ρ} {absence absence' : Absence}

theorem makes_of {change : ρ → ρ} (h : (Field.of name format get set absence).Makes change) :
    ∃ x, change = set x := by
  obtain ⟨s, r, hrun⟩ := h
  obtain ⟨⟨x, t⟩, -, hchange⟩ := bind_eq_ok.1 hrun
  cases hchange
  exact ⟨x, rfl⟩

theorem apart_of (h : ∀ x y a, set x (set' y a) = set' y (set x a)) :
    (Field.of name format get set absence).Apart (Field.of name' format' get' set' absence') := by
  intro change change' hmakes hmakes' a
  obtain ⟨x, rfl⟩ := makes_of hmakes
  obtain ⟨y, rfl⟩ := makes_of hmakes'
  exact h x y a

theorem settles_of (h : ∀ x a, set x (set x a) = set x a) :
    (Field.of name format get set absence).Settles := by
  intro change hmakes a
  obtain ⟨x, rfl⟩ := makes_of hmakes
  exact h x a

theorem understands_of {meaning : Value → Option α} (h : format.reader.Understands meaning) :
    ∃ meaning, (Field.of name format get set absence).reader.Understands meaning :=
  ⟨_, h.map set⟩

/-- A field reads the values that its format reads. -/
theorem accepts_of {v : Value} :
    (Field.of name format get set absence).reader.Accepts v ↔ format.reader.Accepts v := by
  constructor
  · rintro ⟨change, hchange⟩
    obtain ⟨x, hx, -⟩ := (Reader.takes_map set).mp hchange
    exact ⟨x, hx⟩
  · rintro ⟨x, hx⟩
    exact ⟨set x, (Reader.takes_map set).mpr ⟨x, hx, rfl⟩⟩

/-- A field that sets one part is read as this part is to be written. -/
theorem follows_of {meaning : Value → Option α} (h : format.reader.Understands meaning)
    (hget : ∀ x a, get (set x a) = x) :
    (Field.of name format get set absence).Follows (.of name format get) where
  name := rfl
  takes _ := accepts_of.trans (exists_congr fun _ => Reader.takes_iff_decodes h)
  tells v change a htakes hsame := by
    obtain ⟨x, hx, rfl⟩ := (Reader.takes_map set).mp htakes
    have hpart : get a = x := (congrArg get hsame).symm.trans (hget x a)
    show format.Decodes v (get a)
    rw [hpart]
    exact (Reader.takes_iff_decodes h).mp hx

end Field

/-- Where a field that may be null has no member but a null, a record has nothing for it. -/
theorem RecordFormat.Orderly.set_none {ρ α : Type} {format : RecordFormat ρ} {inner : Format α}
    {meaning : Value → Option α} {name : String} {get : ρ → Option α} {set : Option α → ρ → ρ}
    {absence : Absence} (h : format.Orderly) (hinner : inner.reader.Understands meaning)
    (hfield : Field.of name (.optional inner) get set absence ∈ format.fields)
    (hblank : set none format.blank = format.blank) {members : List (String × Value)}
    {text : String} {a : ρ} (ht : (Value.object members).IsText text)
    (hread : format.toFormat.decode text = .ok a) (hnull : ∀ v, (name, v) ∈ members → v = .null) :
    set none a = a := by
  have htakes : ∀ x, (Format.optional inner).reader.Takes .null x ↔ some none = some x :=
    fun _ => (understands_optional hinner).takes_iff .null
  by_cases hmem : name ∈ members.map (·.1)
  · obtain ⟨⟨_, v⟩, hv, rfl⟩ := List.mem_map.mp hmem
    obtain rfl := hnull v hv
    obtain ⟨change, hchange, hsame⟩ := h.change_of_mem ht hread hfield hv
    obtain ⟨x, hx, rfl⟩ := (Reader.takes_map set).mp hchange
    obtain rfl : none = x := Option.some.inj ((htakes x).mp hx)
    exact hsame
  · have hmakes : (Field.of name (.optional inner) get set absence).Makes (set none) :=
      Field.makes_of_takes ((Reader.takes_map set).mpr ⟨none, (htakes none).mpr rfl, rfl⟩)
    exact h.change_of_not_mem ht hread hfield hmem hmakes hblank

end Json

/-! ### The records of a call -/

namespace Written

theorem orderly_route : routeRecord.Orderly where
  nodup_names := by decide
  understands := by
    simp only [routeRecord, List.forall_mem_singleton]
    exact Field.understands_of understands_choice
  apart := List.pairwise_singleton ..
  settles := by
    simp only [routeRecord, List.forall_mem_singleton]
    exact Field.settles_of fun _ _ => rfl

theorem orderly_address : addressRecord.Orderly where
  nodup_names := by decide
  understands := by
    simp only [addressRecord, List.forall_mem_cons]
    exact ⟨Field.understands_of (understands_optional understands_identifier),
      Field.understands_of (understands_optional understands_string), nofun⟩
  apart := List.pairwise_pair.mpr (Field.apart_of fun _ _ _ => rfl)
  settles := by
    simp only [addressRecord, List.forall_mem_cons]
    exact ⟨Field.settles_of fun _ _ => rfl, Field.settles_of fun _ _ => rfl, nofun⟩

theorem orderly_snapshot : snapshotRecord.Orderly where
  nodup_names := by decide
  understands := by
    simp only [snapshotRecord, List.forall_mem_cons]
    exact ⟨Field.understands_of understands_identifier, Field.understands_of understands_choice,
      Field.understands_of understands_string,
      Field.understands_of orderly_address.understands_toFormat,
      Field.understands_of understands_word, Field.understands_of understands_choice,
      Field.understands_of understands_choice, Field.understands_of understands_choice,
      Field.understands_of understands_flag,
      Field.understands_of (understands_optional understands_word),
      Field.understands_of understands_flag, Field.understands_of understands_flag,
      Field.understands_of understands_flag, Field.understands_of understands_flag,
      Field.understands_of understands_flag,
      Field.understands_of orderly_route.understands_toFormat,
      Field.understands_of understands_flag, Field.understands_of understands_flag,
      Field.understands_of understands_flag, Field.understands_of understands_flag, nofun⟩
  apart := by
    unfold snapshotRecord
    repeat' first
      | exact List.Pairwise.nil
      | refine List.Pairwise.cons ?_ ?_
      | refine List.forall_mem_cons.mpr ⟨Field.apart_of fun _ _ _ => rfl, ?_⟩
    all_goals nofun
  settles := by
    unfold snapshotRecord
    repeat' refine List.forall_mem_cons.mpr ⟨Field.settles_of fun _ _ => rfl, ?_⟩
    nofun

/-! ### What is to be written -/

/-- What is to be written for a route. -/
def routeEntries : List (Entry Route) := [
  .of "local_adapter_type" .choice Route.adapter]

/-- What is to be written for an address. -/
def addressEntries : List (Entry Address) := [
  .of "service_id" (.optional .identifier) Address.serviceId,
  .of "phone_number" (.optional .string) Address.phoneNumber]

/-- What is to be written for a snapshot. -/
def snapshotEntries : List (Entry Snapshot) := [
  .of "local_id" .identifier Snapshot.id,
  .of "direction" .choice Snapshot.direction,
  .of "thread_id" .string Snapshot.threadId,
  .of "remote_address" address Snapshot.remoteAddress,
  .of "sent_at_timestamp" .word Snapshot.sentAt,
  .of "adapter_type" .choice Snapshot.adapter,
  .of "offer_media_type" .choice Snapshot.offer,
  .of "state" .choice Snapshot.phase,
  .of "is_ended" .flag Snapshot.isOver,
  .of "signaling_id" (.optional .word) Snapshot.signalingId,
  .of "is_audio_muted" .flag Snapshot.audioMuted,
  .of "has_local_video" .flag Snapshot.localVideo,
  .of "is_on_hold" .flag Snapshot.onHold,
  .of "is_remote_video_enabled" .flag Snapshot.remoteVideo,
  .of "is_remote_sharing_screen" .flag Snapshot.remoteSharing,
  .of "network_route" route Snapshot.route,
  .of "has_call_record" .flag Snapshot.hasRecord,
  .of "has_deferred_acceptance" .flag Snapshot.hasDeferred,
  .of "was_reported_to_system" .flag Snapshot.registered,
  .of "was_removed_from_system" .flag Snapshot.deregistered]

theorem follows_route : routeRecord.Follows routeEntries [] where
  fields := .cons (Field.follows_of understands_choice fun _ _ => rfl) .nil
  optional := by decide

theorem follows_address : addressRecord.Follows addressEntries ["service_id", "phone_number"] where
  fields :=
    .cons (Field.follows_of (understands_optional understands_identifier) fun _ _ => rfl) <|
    .cons (Field.follows_of (understands_optional understands_string) fun _ _ => rfl) .nil
  optional := by decide

theorem follows_snapshot : snapshotRecord.Follows snapshotEntries ["signaling_id"] where
  fields :=
    .cons (Field.follows_of understands_identifier fun _ _ => rfl) <|
    .cons (Field.follows_of understands_choice fun _ _ => rfl) <|
    .cons (Field.follows_of understands_string fun _ _ => rfl) <|
    .cons (Field.follows_of orderly_address.understands_toFormat fun _ _ => rfl) <|
    .cons (Field.follows_of understands_word fun _ _ => rfl) <|
    .cons (Field.follows_of understands_choice fun _ _ => rfl) <|
    .cons (Field.follows_of understands_choice fun _ _ => rfl) <|
    .cons (Field.follows_of understands_choice fun _ _ => rfl) <|
    .cons (Field.follows_of understands_flag fun _ _ => rfl) <|
    .cons (Field.follows_of (understands_optional understands_word) fun _ _ => rfl) <|
    .cons (Field.follows_of understands_flag fun _ _ => rfl) <|
    .cons (Field.follows_of understands_flag fun _ _ => rfl) <|
    .cons (Field.follows_of understands_flag fun _ _ => rfl) <|
    .cons (Field.follows_of understands_flag fun _ _ => rfl) <|
    .cons (Field.follows_of understands_flag fun _ _ => rfl) <|
    .cons (Field.follows_of orderly_route.understands_toFormat fun _ _ => rfl) <|
    .cons (Field.follows_of understands_flag fun _ _ => rfl) <|
    .cons (Field.follows_of understands_flag fun _ _ => rfl) <|
    .cons (Field.follows_of understands_flag fun _ _ => rfl) <|
    .cons (Field.follows_of understands_flag fun _ _ => rfl) .nil
  optional := by decide

/-- **Snapshots, addresses and routes go by their members.**  An object is decoded as a snapshot
exactly if none of the twenty names is there twice, none but that of the identifier in signaling is
missing, and the value of each is one of its format; as an address or a route by the same rule, with
their own names, of which an address may do without either.  That rule is also the one for the
address and the route in a snapshot.  Each value is what the part of the record was decoded from,
and an optional part that is left out or null is missing.  Whatever else is in the object, in
whatever order and spelling, the same comes of the members of these names. -/
theorem snapshots_go_by_their_members {members : List (String × Value)} {text : String}
    (ht : (Value.object members).IsText text) :
    (((∃ s, snapshot.decode text = .ok s) ↔
        Entry.AreGivenBy snapshotEntries ["signaling_id"] members) ∧
      ((∃ a, address.decode text = .ok a) ↔
        Entry.AreGivenBy addressEntries ["service_id", "phone_number"] members) ∧
      ((∃ r, route.decode text = .ok r) ↔ Entry.AreGivenBy routeEntries [] members)) ∧
    (∀ s, snapshot.decode text = .ok s →
      (∀ entry ∈ snapshotEntries, ∀ v, (entry.name, v) ∈ members → entry.Tells v s) ∧
      ((∀ v, ("signaling_id", v) ∈ members → v = .null) → s.signalingId = none)) ∧
    (∀ a, address.decode text = .ok a →
      (∀ entry ∈ addressEntries, ∀ v, (entry.name, v) ∈ members → entry.Tells v a) ∧
      ((∀ v, ("service_id", v) ∈ members → v = .null) → a.serviceId = none) ∧
      ((∀ v, ("phone_number", v) ∈ members → v = .null) → a.phoneNumber = none)) ∧
    (∀ r, route.decode text = .ok r →
      ∀ entry ∈ routeEntries, ∀ v, (entry.name, v) ∈ members → entry.Tells v r) ∧
    ∀ members' text', (Value.object members').IsText text' →
      ((Entry.among snapshotEntries members').Perm (Entry.among snapshotEntries members) →
        (snapshot.decode text').toOption = (snapshot.decode text).toOption) ∧
      ((Entry.among addressEntries members').Perm (Entry.among addressEntries members) →
        (address.decode text').toOption = (address.decode text).toOption) ∧
      ((Entry.among routeEntries members').Perm (Entry.among routeEntries members) →
        (route.decode text').toOption = (route.decode text).toOption) := by
  refine ⟨⟨orderly_snapshot.decodes_iff follows_snapshot ht,
    orderly_address.decodes_iff follows_address ht, orderly_route.decodes_iff follows_route ht⟩,
    fun s hread => ⟨orderly_snapshot.tells_of_decode follows_snapshot ht hread, fun hnull => ?_⟩,
    fun a hread => ⟨orderly_address.tells_of_decode follows_address ht hread,
      fun hnull => ?_, fun hnull => ?_⟩,
    fun r hread => orderly_route.tells_of_decode follows_route ht hread,
    fun members' text' ht' => ⟨orderly_snapshot.decode_of_among follows_snapshot ht ht',
      orderly_address.decode_of_among follows_address ht ht',
      orderly_route.decode_of_among follows_route ht ht'⟩⟩
  · have hset := orderly_snapshot.set_none understands_word
      (List.mem_of_getElem? (i := 9) rfl) rfl ht hread hnull
    exact (congrArg Snapshot.signalingId hset).symm
  · have hset := orderly_address.set_none understands_identifier
      (List.mem_of_getElem? (i := 0) rfl) rfl ht hread hnull
    exact (congrArg Address.serviceId hset).symm
  · have hset := orderly_address.set_none understands_string
      (List.mem_of_getElem? (i := 1) rfl) rfl ht hread hnull
    exact (congrArg Address.phoneNumber hset).symm

/-- A snapshot is found among other members, with its own in another order, and so are the address
and the route in it. -/
theorem snapshot_is_found_among_other_members :
    let word := fun s : String => Value.string (s.toList.map .char)
    let whom := [("extra", word "Ada"), ("phone_number", .null)]
    let how := [("extra", .null), ("local_adapter_type", word "wifi")]
    let members := [
      ("was_removed_from_system", .flag false), ("was_reported_to_system", .flag true),
      ("signaling_id", .null), ("network_route", .object how), ("remote_address", .object whom),
      ("extra", .object [("state", .object [("is_ended", .null)])]), ("state", word "connected"),
      ("is_ended", .flag false), ("is_audio_muted", .flag false), ("has_local_video", .flag true),
      ("is_on_hold", .flag false), ("is_remote_video_enabled", .flag true),
      ("is_remote_sharing_screen", .flag false), ("has_call_record", .flag true),
      ("has_deferred_acceptance", .flag false),
      ("local_id", .string (Identifier.blank.chars.map .char)), ("direction", word "incoming"),
      ("adapter_type", word "default"), ("offer_media_type", word "audio"),
      ("thread_id", word "thread"), ("sent_at_timestamp", .number (plainNumeral 7))]
    ∃ text, (Value.object members).IsText text ∧
      ∃ s, snapshot.decode text = .ok s ∧ s.signalingId = none := by
  intro word whom how members
  have hnull : ∃ t, Value.null.Spells t := ⟨_, .null⟩
  have hflag : ∀ on, ∃ t, (Value.flag on).Spells t := fun on => ⟨_, .flag on⟩
  have hword : ∀ s, ∃ t, (word s).Spells t := fun s => ⟨_, spells_quoted s.toList⟩
  have hwhom : ∃ t, (Value.object whom).Spells t := by
    refine exists_spells_object ?_
    simp only [whom, List.forall_mem_cons]
    exact ⟨hword _, hnull, nofun⟩
  have hhow : ∃ t, (Value.object how).Spells t := by
    refine exists_spells_object ?_
    simp only [how, List.forall_mem_cons]
    exact ⟨hnull, hword _, nofun⟩
  have hextra : ∃ t, (Value.object [("state", .object [("is_ended", .null)])]).Spells t :=
    exists_spells_object (List.forall_mem_singleton.mpr
      (exists_spells_object (List.forall_mem_singleton.mpr hnull)))
  have hid : ∃ t, (Value.string (Identifier.blank.chars.map .char)).Spells t :=
    ⟨_, spells_quoted _⟩
  have hsent : ∃ t, (Value.number (plainNumeral 7)).Spells t := ⟨_, spells_chars 7⟩
  have hmembers : ∀ member ∈ members, ∃ t, member.2.Spells t := by
    simp only [members, List.forall_mem_cons]
    exact ⟨hflag _, hflag _, hnull, hhow, hwhom, hextra, hword _, hflag _, hflag _, hflag _,
      hflag _, hflag _, hflag _, hflag _, hflag _, hid, hword _, hword _, hword _, hword _, hsent,
      nofun⟩
  -- The two objects inside go by the same rule.
  have haddress : ∃ a, address.Decodes (.object whom) a := by
    obtain ⟨text, ht⟩ := exists_isText hwhom
    obtain ⟨⟨-, hiff, -⟩, -⟩ := snapshots_go_by_their_members ht
    have hvalid : ∀ entry ∈ addressEntries, ∀ v, (entry.name, v) ∈ whom → entry.Takes v := by
      simp only [addressEntries, List.forall_mem_cons]
      refine ⟨?_, Entry.forall_takes (by decide) (List.mem_of_getElem? (i := 1) rfl)
        (Entry.takes_of (understands_optional understands_string) hnull rfl), nofun⟩
      simp [whom, Entry.of]
    obtain ⟨a, ha⟩ := hiff.mpr ⟨by decide, by decide, hvalid⟩
    exact ⟨a, text, ht, ha⟩
  have hroute : ∃ r, route.Decodes (.object how) r := by
    obtain ⟨text, ht⟩ := exists_isText hhow
    obtain ⟨⟨-, -, hiff⟩, -⟩ := snapshots_go_by_their_members ht
    have hvalid : ∀ entry ∈ routeEntries, ∀ v, (entry.name, v) ∈ how → entry.Takes v :=
      List.forall_mem_singleton.mpr (Entry.forall_takes (by decide)
        (List.mem_of_getElem? (i := 1) rfl)
        (Entry.takes_of understands_choice (hword _) (by decide)))
    obtain ⟨r, hr⟩ := hiff.mpr ⟨by decide, by decide, hvalid⟩
    exact ⟨r, text, ht, hr⟩
  obtain ⟨text, ht⟩ := exists_isText (exists_spells_object hmembers)
  obtain ⟨⟨hiff, -⟩, htells, -⟩ := snapshots_go_by_their_members ht
  have honce : ∀ name, (members.map (·.1)).count name ≤ 1 :=
    List.nodup_iff_count_le_one.mp (by decide)
  have hat (i : Nat) {entry : Entry Snapshot} {v : Value}
      (h : members[i]? = some (entry.name, v)) :
      entry.Takes v → ∀ w, (entry.name, w) ∈ members → entry.Takes w :=
    Entry.forall_takes (honce entry.name) (List.mem_of_getElem? h)
  have hon {name : String} {part : Snapshot → Bool} (on : Bool) :
      (Entry.of name .flag part).Takes (.flag on) := Entry.takes_of understands_flag (hflag on) rfl
  have hgiven : Entry.AreGivenBy snapshotEntries ["signaling_id"] members := by
    refine ⟨fun entry _ => honce entry.name, by decide, ?_⟩
    simp only [snapshotEntries, List.forall_mem_cons]
    exact ⟨hat 15 rfl (Entry.takes_of understands_identifier hid (by decide)),
      hat 16 rfl (Entry.takes_of understands_choice (hword _) (by decide)),
      hat 19 rfl (Entry.takes_of understands_string (hword _) rfl), hat 4 rfl haddress,
      hat 20 rfl (Entry.takes_of understands_word hsent (by decide)),
      hat 17 rfl (Entry.takes_of understands_choice (hword _) (by decide)),
      hat 18 rfl (Entry.takes_of understands_choice (hword _) (by decide)),
      hat 6 rfl (Entry.takes_of understands_choice (hword _) (by decide)), hat 7 rfl (hon _),
      hat 2 rfl (Entry.takes_of (understands_optional understands_word) hnull rfl),
      hat 8 rfl (hon _), hat 9 rfl (hon _), hat 10 rfl (hon _), hat 11 rfl (hon _),
      hat 12 rfl (hon _), hat 3 rfl hroute, hat 13 rfl (hon _), hat 14 rfl (hon _),
      hat 1 rfl (hon _), hat 0 rfl (hon _), nofun⟩
  obtain ⟨s, hread⟩ := hiff.mpr hgiven
  exact ⟨text, ht, s, hread, (htells s hread).2 (by simp [members])⟩

end Written

end CallLifecycle
