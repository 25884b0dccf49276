/-
What is encoded is decoded again.

A record that is encoded is an object without any blanks.  So no blank comes first, and what is
written of a record can stand inside another one.  What is left for a snapshot is that each of its
fields is read back; the identifier is, because writing puts the hyphens where reading wants them.
-/
import CallLifecycle.Proofs.Decoding
import CallLifecycle.Proofs.Rereading

namespace CallLifecycle

open Json

namespace Json

/-! ### Identifiers as they are written -/

theorem take_append_drop_add (n m : Nat) (cs : List Char) :
    (cs.drop n).take m ++ cs.drop (n + m) = cs.drop n := by
  rw [← List.drop_drop, List.take_append_drop]

/-- Dropping the hyphens undoes putting them in. -/
theorem filter_hyphenate {cs : List Char} (h : ∀ c ∈ cs, c ≠ '-') :
    (Identifier.hyphenate cs).filter (· != '-') = cs := by
  have hkeep : ∀ part : List Char, part ⊆ cs → part.filter (· != '-') = part :=
    fun part hpart => List.filter_eq_self.mpr fun c hc => by simpa using h c (hpart hc)
  have htake : ∀ n m, ((cs.drop n).take m).filter (· != '-') = (cs.drop n).take m :=
    fun n m => hkeep _ (List.Subset.trans (List.take_subset m _) (List.drop_subset n cs))
  have hhyphen : ('-' != '-') = false := rfl
  simp only [Identifier.hyphenate, List.filter_append, List.filter_cons, hhyphen,
    Bool.false_eq_true, if_false, hkeep _ (List.take_subset 8 cs), htake,
    hkeep _ (List.drop_subset 20 cs), List.append_assoc]
  rw [take_append_drop_add 16 4, take_append_drop_add 12 4, take_append_drop_add 8 4,
    List.take_append_drop]

theorem mapM_hexDigit? (digits : List (Fin 16)) :
    (digits.map fun d => Nat.digitChar d.val).mapM hexDigit? = some digits := by
  induction digits with
  | nil => rfl
  | cons d digits ih => simp [List.mapM_cons, ih]

theorem digitChar_ne_hyphen : ∀ d : Fin 16, Nat.digitChar d ≠ '-' := by
  decide

/-- An identifier is read back from its groups. -/
theorem ofChars?_chars (i : Identifier) : Identifier.ofChars? i.chars = some i := by
  have hdigit : ∀ c ∈ i.digits.map fun d => Nat.digitChar d.val, c ≠ '-' := by
    intro c hc
    obtain ⟨d, -, rfl⟩ := List.mem_map.mp hc
    exact digitChar_ne_hyphen d
  have hgroups : Identifier.ofGroups? i.chars = some i := by
    simp only [Identifier.ofGroups?, Identifier.chars, filter_hyphenate hdigit, if_true]
    rw [Identifier.ofDigits?, mapM_hexDigit?]
    exact dif_pos i.length_digits
  rw [Identifier.ofChars?, hgroups]
  rfl

theorem writesMeaning_identifier :
    Format.identifier.WritesMeaning fun v => v.characters?.bind Identifier.ofChars? := fun i =>
  ⟨_, spells_quoted i.chars, by simp [Value.characters?, ofChars?_chars], nofun⟩

/-! ### Records on one line -/

/-- No blanks at all. -/
def Layout.compact : Layout where
  lead := []
  gap := []
  tail := []
  blank_lead := rfl
  blank_gap := rfl
  blank_tail := rfl

namespace RecordFormat

variable {ρ : Type} {format : RecordFormat ρ}

/-- An object on one line is spelled so. -/
theorem spelled_compact (a : ρ) (field : Field ρ) (fields : List (Field ρ)) :
    [','].intercalate ((field :: fields).map fun f =>
        quoted f.name.toList ++ ':' :: f.write a) ++ ['}'] =
      spelled a .compact true (field :: fields) := by
  induction fields generalizing field with
  | nil => simp [spelled, Layout.compact]
  | cons next fields ih => simpa [spelled, Layout.compact] using ih next

theorem write_eq_spelled (hsome : format.fields ≠ []) (a : ρ) :
    format.write a = '{' :: spelled a .compact true format.fields := by
  obtain ⟨field, fields, hfields⟩ := List.exists_cons_of_ne_nil hsome
  rw [write, hfields, ← spelled_compact]
  rfl

/-- What is written of a record that is read back can stand inside another one. -/
theorem Faithful.toFormat (h : format.Faithful) (hsome : format.fields ≠ []) :
    format.toFormat.Faithful where
  starts a r := by
    show dropBlank (format.write a ++ r) = format.write a ++ r
    rw [write_eq_spelled hsome, List.cons_append]
    exact dropBlank_of_not rfl _
  reads {a s r} hs _ := by
    have hbrace : dropBlank s = '{' :: (spelled a .compact true format.fields ++ r) :=
      hs.trans (congrArg (· ++ r) (write_eq_spelled hsome a))
    exact read_spelled a h .compact hbrace

/-- **A record that is read back is decoded from what is encoded of it.** -/
theorem Faithful.decode_encode (h : format.Faithful) (hsome : format.fields ≠ []) (a : ρ) :
    format.toFormat.decode (format.toFormat.encode a) = .ok a := by
  show format.toFormat.decode (String.ofList (format.write a)) = _
  rw [write_eq_spelled hsome]
  exact decode_spelled a h .compact

end RecordFormat

end Json

/-! ### Snapshots -/

namespace Written

theorem faithful_address : addressRecord.Faithful where
  nodup_names := orderly_address.nodup_names
  rereads _ :=
    ⟨_, .cons (Field.rereads_of (writesMeaning_identifier.faithful_optional
        understands_identifier) ..) (.cons (Field.rereads_of
        (writesMeaning_string.faithful_optional understands_string) ..) .nil), rfl⟩

theorem faithful_route : routeRecord.Faithful where
  nodup_names := orderly_route.nodup_names
  rereads _ := ⟨_, .cons (Field.rereads_of
    (writesMeaning_choice.faithful understands_choice) ..) .nil, rfl⟩

theorem faithful_snapshot : snapshotRecord.Faithful where
  nodup_names := orderly_snapshot.nodup_names
  rereads _ := by
    have hidentifier := writesMeaning_identifier.faithful understands_identifier
    have hstring := writesMeaning_string.faithful understands_string
    have hword := writesMeaning_word.faithful understands_word
    have hword? := writesMeaning_word.faithful_optional understands_word
    have haddress := faithful_address.toFormat nofun
    have hroute := faithful_route.toFormat nofun
    have hchoice : ∀ {α : Type} [Vocabulary α], (Format.choice : Format α).Faithful :=
      writesMeaning_choice.faithful understands_choice
    have hflag := Format.faithful_flag
    exact ⟨_,
      .cons (Field.rereads_of hidentifier ..) <| .cons (Field.rereads_of hchoice ..) <|
      .cons (Field.rereads_of hstring ..) <| .cons (Field.rereads_of haddress ..) <|
      .cons (Field.rereads_of hword ..) <| .cons (Field.rereads_of hchoice ..) <|
      .cons (Field.rereads_of hchoice ..) <| .cons (Field.rereads_of hchoice ..) <|
      .cons (Field.rereads_of hflag ..) <| .cons (Field.rereads_of hword? ..) <|
      .cons (Field.rereads_of hflag ..) <| .cons (Field.rereads_of hflag ..) <|
      .cons (Field.rereads_of hflag ..) <| .cons (Field.rereads_of hflag ..) <|
      .cons (Field.rereads_of hflag ..) <| .cons (Field.rereads_of hroute ..) <|
      .cons (Field.rereads_of hflag ..) <| .cons (Field.rereads_of hflag ..) <|
      .cons (Field.rereads_of hflag ..) <| .cons (Field.rereads_of hflag ..) <|
      .nil, rfl⟩

/-- **A snapshot is decoded from what is encoded of it**, whatever it holds. -/
theorem snapshot_is_read_back (s : Snapshot) : snapshot.decode (snapshot.encode s) = .ok s :=
  faithful_snapshot.decode_encode nofun s

end Written

end CallLifecycle
