import H264Streaming.Sdp.Dump

/-! What a call of sdp_parse comes to, by the keys of the lines.

The time fields are read without a look at the key, and without a look at the value: where
nothing follows the fields in front of them, split_values gets the null pointer that
load_next_entry has left. -/

set_option autoImplicit false

namespace H264Streaming.Sdp

open H264Streaming.Bytes

/-- The three mandatory lines, and what stands behind them. -/
def Mandatory (lines rest : List Entry) : Prop :=
  ∃ origin sessionName, lines = (118, [48]) :: (111, origin) :: (115, sessionName) :: rest

/-- The lines that may stand in front of the time fields, in their order. -/
def HeadOnly (rest : List Entry) : Prop :=
  ∃ (information uri : Option (List UInt8)) (emails phones : List (List UInt8)) (conn : Option (List UInt8))
    (bw : List (List UInt8)), rest = printed 105 information.toList ++ (printed 117 uri.toList ++
      (printed 101 emails ++ (printed 112 phones ++ (printed 99 conn.toList ++ printed 98 bw))))

theorem loadFacultativeStr_eq (key : UInt8) (entries : List Entry) :
    entries = printed key (loadFacultativeStr key entries).1.toList ++ (loadFacultativeStr key entries).2 := by
  cases entries with
  | nil => rfl
  | cons entry rest =>
      rw [loadFacultativeStr]
      split
      · next same =>
          have own : entry.1 = key := of_decide_eq_true same
          rw [← own]
          rfl
      · rfl

theorem loadMultipleFacultativeStr_eq (key : UInt8) (entries : List Entry) :
    entries = printed key (loadMultipleFacultativeStr key entries).1 ++ (loadMultipleFacultativeStr key entries).2 := by
  have own : (entries.takeWhile (Entry.hasKey key)).map (Prod.mk key ∘ Prod.snd) = entries.takeWhile (Entry.hasKey key) := by
    refine (List.map_congr_left fun entry member => ?_).trans (List.map_id _)
    have hasKey : Entry.hasKey key entry := List.mem_takeWhile_imp member
    have same : entry.1 = key := of_decide_eq_true hasKey
    rw [← same]
    rfl
  rw [loadMultipleFacultativeStr, printed, List.map_map, own, List.takeWhile_append_dropWhile]

theorem loadHead_nil_iff (origin : SdpOrigin) (sessionName : List UInt8) (entries : List Entry) :
    (loadHead origin sessionName entries).2 = [] ↔ HeadOnly entries := by
  constructor
  · intro none
    have information := loadFacultativeStr_eq 105 entries
    have uri := loadFacultativeStr_eq 117 (loadFacultativeStr 105 entries).2
    have emails := loadMultipleFacultativeStr_eq 101 (loadFacultativeStr 117 (loadFacultativeStr 105 entries).2).2
    have phones := loadMultipleFacultativeStr_eq 112
      (loadMultipleFacultativeStr 101 (loadFacultativeStr 117 (loadFacultativeStr 105 entries).2).2).2
    have conn := loadFacultativeStr_eq 99 (loadMultipleFacultativeStr 112
      (loadMultipleFacultativeStr 101 (loadFacultativeStr 117 (loadFacultativeStr 105 entries).2).2).2).2
    have bw := loadMultipleFacultativeStr_eq 98 (loadFacultativeStr 99 (loadMultipleFacultativeStr 112
      (loadMultipleFacultativeStr 101 (loadFacultativeStr 117 (loadFacultativeStr 105 entries).2).2).2).2).2
    dsimp only [loadHead, getConnInfo, getBandwidthInfo] at none
    rw [none, List.append_nil] at bw
    exact ⟨_, _, _, _, _, _, by rw [← bw, ← conn, ← phones, ← emails, ← uri, ← information]⟩
  · rintro ⟨information, uri, emails, phones, conn, bw, rfl⟩
    have loaded := loadHead_printed origin sessionName information uri emails phones conn bw (fun key _ => stops_nil key)
    rw [List.append_nil] at loaded
    rw [loaded]

theorem parseRest_nullRead_iff (head : SdpPayload) (entries : List Entry) :
    parseRest head entries = .nullRead ↔ entries = [] := by
  cases entries with
  | nil => exact iff_of_true rfl rfl
  | cons entry entries => exact iff_of_false (fun same => nomatch same) (List.cons_ne_nil _ _)

theorem parseRest_ne_rejected (head : SdpPayload) (entries : List Entry) : parseRest head entries ≠ .rejected := by
  cases entries with
  | nil => exact fun same => nomatch same
  | cons entry entries => exact fun same => nomatch same

theorem parseEntries_cases (lines : List Entry) :
    (∃ origin sessionName rest, lines = (118, [48]) :: (111, origin) :: (115, sessionName) :: rest ∧
      parseEntries lines = parseRest (loadHead (originValue origin) sessionName rest).1
        (loadHead (originValue origin) sessionName rest).2) ∨
    (¬ ∃ rest, Mandatory lines rest) ∧ parseEntries lines = .rejected := by
  unfold parseEntries
  split
  · next version origin sessionName rest =>
      split
      · next zero =>
          rw [zero]
          exact Or.inl ⟨origin, sessionName, rest, rfl, rfl⟩
      · next other =>
          refine Or.inr ⟨?_, rfl⟩
          rintro ⟨rest, origin, sessionName, same⟩
          cases same
          exact other rfl
  · next other =>
      refine Or.inr ⟨?_, rfl⟩
      rintro ⟨rest, origin, sessionName, rfl⟩
      exact other _ _ _ _ rfl

/-- NULL is returned exactly where a mandatory line is missing, and a null pointer read exactly where
nothing stands behind the fields in front of the time fields. -/
theorem outcome_iff (text : List UInt8) :
    (sdpParse text = .rejected ↔ ¬ ∃ rest, Mandatory (entries text) rest) ∧
      (sdpParse text = .nullRead ↔ ∃ rest, Mandatory (entries text) rest ∧ HeadOnly rest) ∧
      ((∃ sdp, sdpParse text = .accepted sdp) ↔ ∃ rest, Mandatory (entries text) rest ∧ ¬ HeadOnly rest) := by
  have unique : ∀ {rest more : List Entry}, Mandatory (entries text) rest → Mandatory (entries text) more → rest = more := by
    rintro rest more ⟨origin, sessionName, same⟩ ⟨other, name, equal⟩
    rw [same] at equal
    cases equal
    rfl
  unfold sdpParse
  rcases parseEntries_cases (entries text) with ⟨origin, sessionName, rest, same, parsed⟩ | ⟨missing, rejected⟩
  · have mandatory : Mandatory (entries text) rest := ⟨origin, sessionName, same⟩
    have nullRead : parseEntries (entries text) = .nullRead ↔ HeadOnly rest := by
      rw [parsed, parseRest_nullRead_iff, loadHead_nil_iff]
    have returned : parseEntries (entries text) ≠ .rejected := parsed ▸ parseRest_ne_rejected _ _
    refine ⟨iff_of_false returned fun none => none ⟨rest, mandatory⟩, ?_, ?_⟩
    · rw [nullRead]
      exact ⟨fun only => ⟨rest, mandatory, only⟩, fun ⟨_, other, only⟩ => unique other mandatory ▸ only⟩
    · constructor
      · rintro ⟨sdp, accepted⟩
        refine ⟨rest, mandatory, fun only => ?_⟩
        rw [nullRead.mpr only] at accepted
        cases accepted
      · rintro ⟨more, other, filled⟩
        obtain rfl := unique other mandatory
        cases outcome : parseEntries (entries text) with
        | rejected => exact absurd outcome returned
        | nullRead => exact absurd (nullRead.mp outcome) filled
        | accepted sdp => exact ⟨sdp, rfl⟩
  · refine ⟨iff_of_true rejected missing, iff_of_false ?_ ?_, iff_of_false ?_ ?_⟩
    · rw [rejected]
      exact fun same => nomatch same
    · rintro ⟨rest, mandatory, -⟩
      exact missing ⟨rest, mandatory⟩
    · rintro ⟨sdp, accepted⟩
      rw [rejected] at accepted
      cases accepted
    · rintro ⟨rest, mandatory, -⟩
      exact missing ⟨rest, mandatory⟩

end H264Streaming.Sdp
