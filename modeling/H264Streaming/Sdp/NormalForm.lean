import H264Streaming.Sdp.RoundTrip

/-! What sdp_parse makes of any text: payloads whose dump is accepted, and texts at which it
reads through a null pointer.

The dump of a payload is parsed to the payload itself, unless the origin has no username or a
media description no type. Then the number behind takes the empty place, and the next dump is
parsed to what was parsed. -/

set_option autoImplicit false

namespace H264Streaming.Sdp

open H264Streaming.Bytes

/-! ### What sdp_parse stores -/

def SdpTime.From (values : Set (List UInt8)) (time : SdpTime) : Prop :=
  ∃ value repeats, value ∈ values ∧ (∀ text ∈ repeats, text ∈ values) ∧ time = timeFields value repeats

structure SdpMedia.From (values : Set (List UInt8)) (media : SdpMedia) : Prop where
  info : ∃ value ∈ values, media.info = infoValue value
  title : ∀ text ∈ media.title, text ∈ values
  conn : ∀ conn ∈ media.conn, ∃ value ∈ values, conn = connectionValue value
  bw : ∀ bw ∈ media.bw, ∃ value ∈ values, bw = bandwidthValue value
  encryptKey : ∀ text ∈ media.encryptKey, text ∈ values
  attributes : ∀ text ∈ media.attributes, text ∈ values

structure SdpPayload.From (values : Set (List UInt8)) (sdp : SdpPayload) : Prop where
  version : sdp.protoVersion = 0
  origin : ∃ value ∈ values, sdp.origin = originValue value
  sessionName : sdp.sessionName ∈ values
  information : ∀ text ∈ sdp.information, text ∈ values
  uri : ∀ text ∈ sdp.uri, text ∈ values
  emails : ∀ text ∈ sdp.emails, text ∈ values
  phones : ∀ text ∈ sdp.phones, text ∈ values
  conn : ∀ conn ∈ sdp.conn, ∃ value ∈ values, conn = connectionValue value
  bw : ∀ bw ∈ sdp.bw, ∃ value ∈ values, bw = bandwidthValue value
  timed : sdp.times ≠ []
  times : ∀ time ∈ sdp.times, time.From values
  zoneAdjustments : sdp.zoneAdjustments = [] ∨ ∃ value ∈ values, sdp.zoneAdjustments = zoneValue value
  encryptKey : ∀ text ∈ sdp.encryptKey, text ∈ values
  attributes : ∀ text ∈ sdp.attributes, text ∈ values
  medias : ∀ media ∈ sdp.medias, media.From values

def Of (values : Set (List UInt8)) (entries : List Entry) : Prop := ∀ entry ∈ entries, entry.2 ∈ values

section
variable {values : Set (List UInt8)} {entries : List Entry}

theorem loadFacultativeStr_of (of : Of values entries) (key : UInt8) :
    (∀ text ∈ (loadFacultativeStr key entries).1, text ∈ values) ∧ Of values (loadFacultativeStr key entries).2 := by
  have nothing : ∀ text ∈ (none : Option (List UInt8)), text ∈ values := fun _ none =>
    absurd none (Option.not_mem_none _)
  cases entries with
  | nil => exact ⟨nothing, of⟩
  | cons entry rest =>
      rw [loadFacultativeStr]
      split
      · refine ⟨fun text same => ?_, fun other member => of other (List.mem_cons_of_mem entry member)⟩
        cases same
        exact of entry List.mem_cons_self
      · exact ⟨nothing, of⟩

theorem loadMultipleFacultativeStr_of (of : Of values entries) (key : UInt8) :
    (∀ text ∈ (loadMultipleFacultativeStr key entries).1, text ∈ values) ∧
      Of values (loadMultipleFacultativeStr key entries).2 := by
  refine ⟨fun text member => ?_, fun entry member => of entry ((List.dropWhile_suffix _).subset member)⟩
  obtain ⟨entry, among, rfl⟩ := List.mem_map.mp member
  exact of entry ((List.takeWhile_prefix _).subset among)

theorem getConnInfo_of (of : Of values entries) :
    (∀ conn ∈ (getConnInfo entries).1, ∃ value ∈ values, conn = connectionValue value) ∧ Of values (getConnInfo entries).2 := by
  obtain ⟨loaded, behind⟩ := loadFacultativeStr_of of 99
  refine ⟨fun conn member => ?_, behind⟩
  obtain ⟨value, among, rfl⟩ := Option.map_eq_some_iff.mp member
  exact ⟨value, loaded value among, rfl⟩

theorem getBandwidthInfo_of (of : Of values entries) :
    (∀ bw ∈ (getBandwidthInfo entries).1, ∃ value ∈ values, bw = bandwidthValue value) ∧
      Of values (getBandwidthInfo entries).2 := by
  obtain ⟨loaded, behind⟩ := loadMultipleFacultativeStr_of of 98
  refine ⟨fun bw member => ?_, behind⟩
  obtain ⟨value, among, rfl⟩ := List.mem_map.mp member
  exact ⟨value, loaded value among, rfl⟩

theorem loadTimes_of {value : List UInt8} (own : value ∈ values) (of : Of values entries) :
    (loadTimes value entries).1 ≠ [] ∧ (∀ time ∈ (loadTimes value entries).1, time.From values) ∧
      Of values (loadTimes value entries).2 := by
  induction size : entries.length using Nat.strong_induction_on generalizing value entries with
  | _ n ih =>
      obtain ⟨loaded, behind⟩ := loadMultipleFacultativeStr_of of 114
      have first : (timeFields value (loadMultipleFacultativeStr 114 entries).1).From values := ⟨value, _, own, loaded, rfl⟩
      rw [loadTimes]
      split
      · next next later more =>
          rw [more] at behind
          have shorter := (List.dropWhile_suffix (Entry.hasKey 114) (l := entries)).length_le
          have rest := congrArg List.length more
          rw [List.length_cons, loadMultipleFacultativeStr] at rest
          dsimp only at rest
          obtain ⟨nextOf, laterOf⟩ := List.forall_mem_cons.mp behind
          obtain ⟨-, times, last⟩ := ih later.length (by omega) nextOf laterOf rfl
          exact ⟨List.cons_ne_nil _ _, List.forall_mem_cons.mpr ⟨first, times⟩, last⟩
      · next rest => exact ⟨List.cons_ne_nil _ _, List.forall_mem_singleton.mpr first, behind⟩

theorem loadMedia_of {value : List UInt8} (own : value ∈ values) (of : Of values entries) :
    (loadMedia value entries).1.From values ∧ Of values (loadMedia value entries).2 := by
  obtain ⟨title, of⟩ := loadFacultativeStr_of of 105
  obtain ⟨conn, of⟩ := getConnInfo_of of
  obtain ⟨bw, of⟩ := getBandwidthInfo_of of
  obtain ⟨encryptKey, of⟩ := loadFacultativeStr_of of 107
  obtain ⟨attributes, of⟩ := loadMultipleFacultativeStr_of of 97
  exact ⟨⟨⟨value, own, rfl⟩, title, conn, bw, encryptKey, attributes⟩, of⟩

theorem loadMedias_of (of : Of values entries) : ∀ media ∈ loadMedias entries, media.From values := by
  induction size : entries.length using Nat.strong_induction_on generalizing entries with
  | _ n ih =>
      rw [loadMedias.eq_def]
      split
      · next value rest =>
          obtain ⟨own, restOf⟩ := List.forall_mem_cons.mp of
          obtain ⟨first, behind⟩ := loadMedia_of own restOf
          have shorter := Nat.lt_succ_of_le (loadMedia_suffix value rest).length_le
          exact List.forall_mem_cons.mpr ⟨first, ih _ (size ▸ shorter) behind rfl⟩
      · exact fun _ none => absurd none List.not_mem_nil

/-- Whatever sdp_parse accepts, the payload is made of values of the lines. -/
theorem parseEntries_of {sdp : SdpPayload} (of : Of values entries) (accepted : parseEntries entries = .accepted sdp) :
    sdp.From values := by
  unfold parseEntries at accepted
  split at accepted
  · next version origin sessionName rest =>
      obtain ⟨-, of⟩ := List.forall_mem_cons.mp of
      obtain ⟨originOf, of⟩ := List.forall_mem_cons.mp of
      obtain ⟨nameOf, of⟩ := List.forall_mem_cons.mp of
      split at accepted
      · obtain ⟨information, of⟩ := loadFacultativeStr_of of 105
        obtain ⟨uri, of⟩ := loadFacultativeStr_of of 117
        obtain ⟨emails, of⟩ := loadMultipleFacultativeStr_of of 101
        obtain ⟨phones, of⟩ := loadMultipleFacultativeStr_of of 112
        obtain ⟨conn, of⟩ := getConnInfo_of of
        obtain ⟨bw, of⟩ := getBandwidthInfo_of of
        dsimp only [loadHead] at accepted
        unfold parseRest at accepted
        split at accepted
        · cases accepted
        · next key value entries same =>
            rw [same] at of
            obtain ⟨own, of⟩ := List.forall_mem_cons.mp of
            obtain ⟨timed, times, of⟩ := loadTimes_of own of
            obtain ⟨zone, of⟩ := loadFacultativeStr_of of 122
            obtain ⟨encryptKey, of⟩ := loadFacultativeStr_of of 107
            obtain ⟨attributes, of⟩ := loadMultipleFacultativeStr_of of 97
            have medias := loadMedias_of of
            have zones : ∀ loaded : Option (List UInt8), (∀ text ∈ loaded, text ∈ values) →
                (loaded.map zoneValue).getD [] = [] ∨ ∃ value ∈ values, (loaded.map zoneValue).getD [] = zoneValue value := by
              intro loaded inside
              cases loaded with
              | none => exact Or.inl rfl
              | some value => exact Or.inr ⟨value, inside value rfl, rfl⟩
            have done := zones _ zone
            cases accepted
            exact {
              version := rfl
              origin := ⟨origin, originOf, rfl⟩
              sessionName := nameOf
              information, uri, emails, phones, conn, bw, timed, times
              zoneAdjustments := done
              encryptKey, attributes, medias }
      · cases accepted
  · cases accepted

end

/-! ### Values of one line -/

section
variable {value : List UInt8}

theorem oneLine_nil : OneLine [] := fun _ none => nomatch none

theorem OneLine.append {front text : List UInt8} (first : OneLine front) (second : OneLine text) : OneLine (front ++ text) := by
  intro octet member
  rcases List.mem_append.mp member with inFront | inText
  · exact first octet inFront
  · exact second octet inText

theorem OneLine.cons {octet : UInt8} {text : List UInt8} (plain : octet ≠ 13 ∧ octet ≠ 10 ∧ octet ≠ 0) (rest : OneLine text) :
    OneLine (octet :: text) :=
  List.forall_mem_cons.mpr ⟨plain, rest⟩

theorem OneLine.flatMap {α : Type} {all : List α} {text : α → List UInt8} (each : ∀ x ∈ all, OneLine (text x)) :
    OneLine (all.flatMap text) := by
  intro octet member
  obtain ⟨x, among, inside⟩ := List.mem_flatMap.mp member
  exact each x among octet inside

theorem oneLine_decimal (n : Int) : OneLine (decimal n) := by
  have digits : ∀ m : Nat, OneLine (decimal (m : Int)) := by
    intro m octet member
    obtain ⟨least, -⟩ := digit_le (isDigit_of_mem_decimal member)
    refine ⟨?_, ?_, ?_⟩ <;> rintro rfl <;> revert least <;> decide
  cases n with
  | ofNat n => exact digits n
  | negSucc n =>
      rw [Int.negSucc_eq, decimal_of_neg]
      exact (digits (n + 1)).cons (by decide)

theorem Separator.plain {sep : UInt8} (separator : Separator sep) : sep ≠ 13 ∧ sep ≠ 10 ∧ sep ≠ 0 := by
  rcases separator with rfl | rfl <;> decide

theorem splitValues_suffix (sep : UInt8) (fmt : List Conversion) (p : List UInt8) : (splitValues sep fmt p).2 <:+ p :=
  splitLoop_suffix sep fmt p

theorem oneLine_printRest {sep : UInt8} (separator : Separator sep) (fmt : List Conversion) {p : List UInt8}
    (plain : OneLine p) : OneLine (printRest sep fmt (splitValues sep fmt p).1) := by
  induction fmt generalizing p with
  | nil => exact oneLine_nil
  | cons conversion fmt ih =>
      have start := plain.subset (skip_suffix sep p).subset
      have rest := ih (start.subset (convert_skip_suffix sep conversion p).subset)
      have own : OneLine (conversion.print (convert sep conversion (skip sep p)).1) := by
        cases conversion with
        | s => exact start.subset (List.takeWhile_prefix _).subset
        | l => exact oneLine_decimal _
        | i => exact oneLine_decimal _
        | t => exact oneLine_decimal _
      exact (own.append rest).cons separator.plain

theorem oneLine_printValues {sep : UInt8} (separator : Separator sep) (fmt : List Conversion) {p : List UInt8}
    (plain : OneLine p) : OneLine (printValues sep fmt (splitValues sep fmt p).1) := by
  have printed := oneLine_printRest separator fmt plain
  cases fmt with
  | nil => exact oneLine_nil
  | cons conversion fmt => exact (List.forall_mem_cons.mp printed).2

theorem originText_plain (plain : OneLine value) : OneLine (originText (originValue value)) := by
  have printed := oneLine_printValues (Or.inl rfl) [.s, .l, .l, .s, .s, .s] plain
  unfold originText originValue
  generalize splitValues 32 [.s, .l, .l, .s, .s, .s] value = split at printed ⊢
  exact printed

theorem connectionText_plain (plain : OneLine value) : OneLine (connectionText (connectionValue value)) :=
  oneLine_printValues (Or.inl rfl) [.s, .s, .s] plain

theorem bandwidthText_plain (plain : OneLine value) : OneLine (bandwidthText (bandwidthValue value)) :=
  oneLine_printValues (Or.inr rfl) [.s, .s] plain

theorem oneLine_numbers (first second : Int) : OneLine (printValues 32 [.t, .t] (first, second, ())) :=
  (oneLine_decimal first).append (((oneLine_decimal second).append oneLine_nil).cons (by decide))

theorem zoneText_plain (zas : List SdpZoneAdjustments) : OneLine (zoneText zas) := by
  induction zas with
  | nil => exact oneLine_nil
  | cons za zas ih =>
      cases zas with
      | nil => exact oneLine_numbers za.adjust za.offset
      | cons next zas => exact (oneLine_numbers za.adjust za.offset).append (ih.cons (by decide))

theorem repeatText_plain (rf : SdpRepeat) : OneLine (repeatText rf) :=
  (oneLine_numbers rf.interval rf.duration).append
    (OneLine.flatMap fun offset _ => ((oneLine_decimal offset).append oneLine_nil).cons (by decide))

theorem infoValue_strings (value : List UInt8) :
    (infoValue value).type = (splitValues 32 [.s] value).1.1 ∧ ∃ behind, behind <:+ value ∧
      (infoValue value).proto = (splitValues 32 [.s] behind).1.1 ∧
      (infoValue value).fmt = splitEach 32 .i [] (fun (fmt, ()) => fmt) (splitValues 32 [.s] behind).2 := by
  refine ⟨rfl, _, ?_, rfl, rfl⟩
  have int : ∀ value : List UInt8, (intValue value).2 <:+ value := by
    intro value
    unfold intValue
    cases read : strtol value with
    | none => exact List.suffix_rfl
    | some found => exact (strtol_suffix read).1
  have count : ∀ value : List UInt8, (portCount value).2 <:+ value := by
    intro value
    unfold portCount
    split
    · exact (int _).trans (List.suffix_cons _ _)
    · exact List.suffix_rfl
  exact (count _).trans ((int _).trans (splitValues_suffix 32 [.s] value))

theorem infoText_plain (plain : OneLine value) : OneLine (infoText (infoValue value)) := by
  obtain ⟨type, behind, inside, proto, -⟩ := infoValue_strings value
  have typePlain : OneLine (infoValue value).type := by
    rw [type]
    exact (plain.subset (skip_suffix 32 value).subset).subset (List.takeWhile_prefix _).subset
  have protoPlain : OneLine (infoValue value).proto := by
    rw [proto]
    exact ((plain.subset inside.subset).subset (skip_suffix 32 behind).subset).subset (List.takeWhile_prefix _).subset
  have count : OneLine (if (infoValue value).portN ≠ 0 then 47 :: decimal (infoValue value).portN else []) := by
    split
    · exact (oneLine_decimal _).cons (by decide)
    · exact oneLine_nil
  rw [infoText_eq]
  refine typePlain.append (OneLine.cons (by decide) ((oneLine_decimal _).append (count.append (OneLine.append ?_ ?_))))
  · exact (protoPlain.append oneLine_nil).cons (by decide)
  · refine OneLine.flatMap fun values member => ?_
    obtain ⟨fmt, -, rfl⟩ := List.mem_map.mp member
    exact ((oneLine_decimal fmt).append oneLine_nil).cons (by decide)

end

/-! ### Lines of a payload that was parsed -/

def PlainLines (lines : List Entry) : Prop := ∀ entry ∈ lines, OneLine entry.octets

theorem plainLines_cons {key : UInt8} {value : List UInt8} {lines : List Entry} (plain : key ≠ 13 ∧ key ≠ 10 ∧ key ≠ 0)
    (text : OneLine value) (rest : PlainLines lines) : PlainLines ((key, value) :: lines) :=
  List.forall_mem_cons.mpr ⟨(text.cons (by decide)).cons plain, rest⟩

theorem PlainLines.append {lines more : List Entry} (first : PlainLines lines) (second : PlainLines more) :
    PlainLines (lines ++ more) := by
  intro entry member
  rcases List.mem_append.mp member with inLines | inMore
  · exact first entry inLines
  · exact second entry inMore

theorem plainLines_printed {key : UInt8} {values : List (List UInt8)} (plain : key ≠ 13 ∧ key ≠ 10 ∧ key ≠ 0)
    (texts : ∀ text ∈ values, OneLine text) : PlainLines (printed key values) := by
  intro entry member
  obtain ⟨value, among, rfl⟩ := List.mem_map.mp member
  exact ((texts value among).cons (by decide)).cons plain

theorem plainLines_option {key : UInt8} {value : Option (List UInt8)} (plain : key ≠ 13 ∧ key ≠ 10 ∧ key ≠ 0)
    (texts : ∀ text ∈ value, OneLine text) : PlainLines (printed key value.toList) :=
  plainLines_printed plain fun text member => texts text (Option.mem_toList.mp member)

theorem plainLines_flatMap {α : Type} {all : List α} {lines : α → List Entry} (each : ∀ x ∈ all, PlainLines (lines x)) :
    PlainLines (all.flatMap lines) := by
  intro entry member
  obtain ⟨x, among, inside⟩ := List.mem_flatMap.mp member
  exact each x among entry inside

theorem connText_plain {conn : Option SdpConnection}
    (loaded : ∀ one ∈ conn, ∃ value, OneLine value ∧ one = connectionValue value) :
    ∀ text ∈ conn.map connectionText, OneLine text := by
  intro text member
  obtain ⟨one, among, rfl⟩ := Option.map_eq_some_iff.mp member
  obtain ⟨value, plain, rfl⟩ := loaded one among
  exact connectionText_plain plain

theorem bwText_plain {bw : List SdpBandwidth} (loaded : ∀ one ∈ bw, ∃ value, OneLine value ∧ one = bandwidthValue value) :
    ∀ text ∈ bw.map bandwidthText, OneLine text := by
  intro text member
  obtain ⟨one, among, rfl⟩ := List.mem_map.mp member
  obtain ⟨value, plain, rfl⟩ := loaded one among
  exact bandwidthText_plain plain

theorem SdpTime.lines_plain (time : SdpTime) : PlainLines time.lines := by
  refine plainLines_cons (by decide) (oneLine_numbers _ _) (plainLines_printed (by decide) fun text member => ?_)
  obtain ⟨rf, -, rfl⟩ := List.mem_map.mp member
  exact repeatText_plain rf

theorem SdpMedia.From.lines_plain {media : SdpMedia} (loaded : media.From {text | OneLine text}) : PlainLines media.lines := by
  obtain ⟨value, plain, info⟩ := loaded.info
  refine plainLines_cons (by decide) (info ▸ infoText_plain plain) ?_
  exact (plainLines_option (by decide) loaded.title).append <|
    (plainLines_option (by decide) (connText_plain loaded.conn)).append <|
      (plainLines_printed (by decide) (bwText_plain loaded.bw)).append <|
        (plainLines_option (by decide) loaded.encryptKey).append (plainLines_printed (by decide) loaded.attributes)

theorem SdpPayload.From.lines_plain {sdp : SdpPayload} (loaded : sdp.From {text | OneLine text}) : PlainLines sdp.lines := by
  obtain ⟨value, plain, origin⟩ := loaded.origin
  have zone : PlainLines (zoneLines sdp.zoneAdjustments) := by
    unfold zoneLines
    split
    · exact fun _ none => nomatch none
    · exact plainLines_cons (by decide) (zoneText_plain _) fun _ none => nomatch none
  refine plainLines_cons (by decide) (oneLine_decimal _) <| plainLines_cons (by decide) (origin ▸ originText_plain plain) <|
    plainLines_cons (by decide) loaded.sessionName ?_
  exact (plainLines_option (by decide) loaded.information).append <|
    (plainLines_option (by decide) loaded.uri).append <|
      (plainLines_printed (by decide) loaded.emails).append <|
        (plainLines_printed (by decide) loaded.phones).append <|
          (plainLines_option (by decide) (connText_plain loaded.conn)).append <|
            (plainLines_printed (by decide) (bwText_plain loaded.bw)).append <|
              (plainLines_flatMap fun time _ => time.lines_plain).append <|
                zone.append <|
                  (plainLines_option (by decide) loaded.encryptKey).append <|
                    (plainLines_printed (by decide) loaded.attributes).append
                      (plainLines_flatMap fun media member => (loaded.medias media member).lines_plain)

/-! ### Printable payloads among those that were parsed -/

theorem connectionValue_printable (value : List UInt8) : (connectionValue value).Printable :=
  readable_strings (by decide : ∀ conversion ∈ [Conversion.s, .s, .s], conversion = .s) value

theorem bandwidthValue_printable (value : List UInt8) : (bandwidthValue value).Printable :=
  readable_strings (by decide : ∀ conversion ∈ [Conversion.s, .s], conversion = .s) value

theorem isLong_two (value : List UInt8) :
    IsLong (splitValues 32 [.t, .t] value).1.1 ∧ IsLong (splitValues 32 [.t, .t] value).1.2.1 := by
  have readable : Readable 32 [] [.t, .t] (splitValues 32 [.t, .t] value).1 := readable_numbers (by decide) value
  exact ⟨readable.1, readable.2.2.1⟩

theorem repeatValue_printable (value : List UInt8) : (repeatValue value).Printable := by
  obtain ⟨interval, duration⟩ := isLong_two value
  refine ⟨interval, duration, fun offset member => ?_⟩
  obtain ⟨p, rfl⟩ := mem_splitEach member
  have readable : Readable 32 [] [.t] (splitValues 32 [.t] p).1 := readable_numbers (by decide) p
  exact readable.1

theorem SdpTime.From.printable {time : SdpTime} {values : Set (List UInt8)} (loaded : time.From values) : time.Printable := by
  obtain ⟨value, repeats, -, -, rfl⟩ := loaded
  obtain ⟨startTime, stopTime⟩ := isLong_two value
  refine ⟨startTime, stopTime, fun rf member => ?_⟩
  obtain ⟨text, -, rfl⟩ := List.mem_map.mp member
  exact repeatValue_printable text

theorem zoneValue_printable {value : List UInt8} {za : SdpZoneAdjustments} (member : za ∈ zoneValue value) : za.Printable := by
  obtain ⟨p, rfl⟩ := mem_splitEach member
  exact isLong_two p

theorem originValue_printable {value : List UInt8} (named : (originValue value).username ≠ []) :
    (originValue value).Printable := by
  have strings : ∀ p, Readable 32 [] [.s, .s, .s] (splitValues 32 [.s, .s, .s] p).1 := readable_strings (by decide)
  have version : ∀ p, Readable 32 [] [.l, .s, .s, .s] (splitValues 32 [.l, .s, .s, .s] p).1 := fun p =>
    readable_cons (Or.inl (decimal_filled _)) strings
  have session : ∀ p, Readable 32 [] [.l, .l, .s, .s, .s] (splitValues 32 [.l, .l, .s, .s, .s] p).1 := fun p =>
    readable_cons (Or.inl (decimal_filled _)) version
  have whole (filled : (splitValues 32 [.s, .l, .l, .s, .s, .s] value).1.1 ≠ []) :
      Readable 32 [] [.s, .l, .l, .s, .s, .s] (splitValues 32 [.s, .l, .l, .s, .s, .s] value).1 :=
    readable_cons (Or.inl filled) session
  unfold SdpOrigin.Printable
  unfold originValue at named ⊢
  -- the values stay closed, or the two sides are compared conversion by conversion
  generalize splitValues 32 [.s, .l, .l, .s, .s, .s] value = split at named whole ⊢
  exact whole named

theorem splitValues_nil_of_empty {sep : UInt8} {value : List UInt8} (empty : (splitValues sep [.s] value).1.1 = []) :
    (splitValues sep [.s] value).2 = [] := by
  rw [splitValues_cons, skip_eq_nil empty]
  rfl

theorem infoValue_printable {value : List UInt8} (typed : (infoValue value).type ≠ []) : (infoValue value).Printable := by
  obtain ⟨type, behind, -, proto, fmt⟩ := infoValue_strings value
  have int : ∀ value : List UInt8, IsInt (intValue value).1 := by
    intro value
    unfold intValue
    split
    · exact isInt_zero
    · exact isInt_toInt32 _
  exact {
    typed
    type := type ▸ convert_fits 32 .s _
    port := int _
    portN := by
      show IsInt (portCount _).1
      unfold portCount
      split
      · exact int _
      · exact isInt_zero
    proto := proto ▸ convert_fits 32 .s _
    last := by
      intro empty
      rw [proto] at empty
      rw [fmt, splitValues_nil_of_empty empty, splitEach, dif_pos rfl]
    fmt := by
      intro n member
      rw [fmt] at member
      obtain ⟨p, rfl⟩ := mem_splitEach member
      have readable : Readable 32 [] [.i] (splitValues 32 [.i] p).1 := readable_numbers (by decide) p
      exact readable.1 }

/-- No place is empty that a number stands behind. -/
def SdpPayload.Named (sdp : SdpPayload) : Prop := sdp.origin.username ≠ [] ∧ ∀ media ∈ sdp.medias, media.info.type ≠ []

theorem SdpPayload.From.printable {sdp : SdpPayload} (loaded : sdp.From {text | OneLine text}) (named : sdp.Named) :
    sdp.Printable where
  version := loaded.version
  origin := by
    obtain ⟨value, -, origin⟩ := loaded.origin
    rw [origin]
    exact originValue_printable (origin ▸ named.1)
  conn := by
    intro conn member
    obtain ⟨value, -, rfl⟩ := loaded.conn conn member
    exact connectionValue_printable value
  bw := by
    intro bw member
    obtain ⟨value, -, rfl⟩ := loaded.bw bw member
    exact bandwidthValue_printable value
  timed := loaded.timed
  times := fun time member => (loaded.times time member).printable
  zoneAdjustments := by
    intro za member
    rcases loaded.zoneAdjustments with none | ⟨value, -, same⟩
    · rw [none] at member
      cases member
    · exact zoneValue_printable (same ▸ member)
  medias := by
    intro media member
    have of := loaded.medias media member
    refine ⟨?_, fun conn among => ?_, fun bw among => ?_⟩
    · obtain ⟨value, -, info⟩ := of.info
      rw [info]
      exact infoValue_printable (info ▸ named.2 media member)
    · obtain ⟨value, -, rfl⟩ := of.conn conn among
      exact connectionValue_printable value
    · obtain ⟨value, -, rfl⟩ := of.bw bw among
      exact bandwidthValue_printable value
  lines := loaded.lines_plain

/-! ### Dumps of what was parsed -/

theorem SdpPayload.From.parse_dump {sdp : SdpPayload} (loaded : sdp.From {text | OneLine text}) :
    sdpParse (sdpDump sdp) = .accepted sdp.reread := by
  rw [sdpParse, sdpDump, entries_dump (Or.inl rfl) loaded.lines_plain, parseEntries_lines loaded.version loaded.timed]

def LfText (text : List UInt8) : Prop := ∀ octet ∈ text, octet ≠ 13 ∧ octet ≠ 0

theorem from_of_accepted {text : List UInt8} (lf : LfText text) {sdp : SdpPayload} (accepted : sdpParse text = .accepted sdp) :
    sdp.From {text | OneLine text} := by
  refine parseEntries_of (fun entry member => ?_) accepted
  exact (oneLine_of_mem_entries lf member).subset fun octet inside =>
    List.mem_cons_of_mem _ (List.mem_cons_of_mem _ inside)

theorem first_filled {sep : UInt8} (fmt : List Conversion) {p : List UInt8} (filled : skip sep p ≠ []) :
    (splitValues sep (.s :: fmt) p).1.1 ≠ [] :=
  fun empty => filled (skip_eq_nil empty)

theorem skip_print_ne_nil {front : List UInt8} (plain : ∀ octet ∈ front, octet ≠ 32) (n : Int) (rest : List UInt8) :
    skip 32 (front ++ (32 :: (decimal n ++ rest))) ≠ [] := by
  cases front with
  | nil =>
      rw [List.nil_append, skip_cons, skip_decimal (Or.inl rfl)]
      exact List.append_ne_nil_of_left_ne_nil (decimal_filled n) rest
  | cons first front =>
      rw [List.cons_append, skip_of_ne (plain first List.mem_cons_self)]
      exact List.cons_ne_nil _ _

theorem originText_named {origin : SdpOrigin} (plain : ∀ octet ∈ origin.username, octet ≠ 32) :
    (originValue (originText origin)).username ≠ [] :=
  first_filled [.l, .l, .s, .s, .s] (skip_print_ne_nil plain _ _)

theorem infoText_typed {info : SdpInfo} (plain : ∀ octet ∈ info.type, octet ≠ 32) : (infoValue (infoText info)).type ≠ [] := by
  rw [(infoValue_strings _).1, infoText_eq]
  exact first_filled [] (skip_print_ne_nil plain _ _)

theorem SdpPayload.From.named_reread {sdp : SdpPayload} {values : Set (List UInt8)} (loaded : sdp.From values) :
    sdp.reread.Named := by
  refine ⟨originText_named ?_, fun media member => ?_⟩
  · obtain ⟨value, -, origin⟩ := loaded.origin
    rw [origin]
    exact convert_fits 32 .s _
  · obtain ⟨before, among, rfl⟩ := List.mem_map.mp member
    obtain ⟨value, -, info⟩ := (loaded.medias before among).info
    refine infoText_typed ?_
    rw [info]
    exact convert_fits 32 .s _

/-- The dump of an accepted text is accepted, and dumping that gives it once more; it is the same
description exactly when its origin and its media descriptions are named. -/
theorem dump_of_accepted {text : List UInt8} (lf : LfText text) {sdp : SdpPayload}
    (accepted : sdpParse text = .accepted sdp) :
    ∃ again, sdpParse (sdpDump sdp) = .accepted again ∧ sdpParse (sdpDump again) = .accepted again ∧
      (again = sdp ↔ sdp.Named) := by
  have loaded := from_of_accepted lf accepted
  have plain : LfText (sdpDump sdp) := by
    intro octet member
    obtain ⟨entry, among, inside⟩ := List.mem_flatMap.mp member
    rcases List.mem_append.mp inside with inLine | inEnd
    · obtain ⟨cr, -, zero⟩ := loaded.lines_plain entry among octet inLine
      exact ⟨cr, zero⟩
    · obtain rfl := List.mem_singleton.mp inEnd
      decide
  have more := from_of_accepted plain loaded.parse_dump
  have fixed := more.parse_dump
  rw [(more.printable loaded.named_reread).reread] at fixed
  refine ⟨sdp.reread, loaded.parse_dump, fixed, fun same => ?_, fun named => (loaded.printable named).reread⟩
  rw [← same]
  exact loaded.named_reread

/-- No username; the number of the session is taken for it next time. -/
def nameless : SdpPayload where
  protoVersion := 0
  origin := ⟨[], 0, 0, [], [], []⟩
  sessionName := []
  information := none
  uri := none
  emails := []
  phones := []
  conn := none
  bw := []
  times := [⟨0, 0, []⟩]
  zoneAdjustments := []
  encryptKey := none
  attributes := []
  medias := []

theorem nameless_changes :
    ∃ again, sdpParse (sdpDump nameless) = .accepted again ∧ sdpParse (sdpDump again) = .accepted again ∧
      (again = nameless ↔ nameless.Named) :=
  have plain : LfText (ascii "v=0\no=\ns=\nm=\n") := by
    unfold LfText
    decide +kernel
  dump_of_accepted plain (by decide +kernel)

end H264Streaming.Sdp
