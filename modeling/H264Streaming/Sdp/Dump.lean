import H264Streaming.Sdp.Lines
import H264Streaming.Sdp.Values

/-! sdp_dump, and sdp_parse of the lines it prints: every field of the payload is read again
from its own line, whatever the values are. -/

set_option autoImplicit false

namespace H264Streaming.Sdp

open H264Streaming.Bytes

/-! ### Values in the format of their line -/

def originText (origin : SdpOrigin) : List UInt8 :=
  printValues 32 [.s, .l, .l, .s, .s, .s]
    (origin.username, origin.sessId, origin.sessVersion, origin.nettype, origin.addrtype, origin.addr, ())

def connectionText (conn : SdpConnection) : List UInt8 :=
  printValues 32 [.s, .s, .s] (conn.nettype, conn.addrtype, conn.address, ())

def bandwidthText (bw : SdpBandwidth) : List UInt8 := printValues 58 [.s, .s] (bw.bwtype, bw.bandwidth, ())

def timeText (time : SdpTime) : List UInt8 := printValues 32 [.t, .t] (time.startTime, time.stopTime, ())

def repeatText (rf : SdpRepeat) : List UInt8 :=
  printValues 32 [.t, .t] (rf.interval, rf.duration, ()) ++ rf.offsets.flatMap fun offset => printRest 32 [.t] (offset, ())

def zoneText : List SdpZoneAdjustments → List UInt8
  | [] => []
  | [za] => printValues 32 [.t, .t] (za.adjust, za.offset, ())
  | za :: zas => printValues 32 [.t, .t] (za.adjust, za.offset, ()) ++ 32 :: zoneText zas

def infoText (info : SdpInfo) : List UInt8 :=
  printValues 32 [.s, .i] (info.type, info.port, ()) ++ (if info.portN ≠ 0 then 47 :: decimal info.portN else []) ++
    printRest 32 [.s] (info.proto, ()) ++ info.fmt.flatMap fun fmt => printRest 32 [.i] (fmt, ())

/-! ### sdp_dump -/

def printed (key : UInt8) (values : List (List UInt8)) : List Entry := values.map (Prod.mk key)

def SdpTime.lines (time : SdpTime) : List Entry := (116, timeText time) :: printed 114 (time.repeats.map repeatText)

def SdpMedia.lines (media : SdpMedia) : List Entry :=
  (109, infoText media.info) :: (printed 105 media.title.toList ++ (printed 99 (media.conn.map connectionText).toList ++
    (printed 98 (media.bw.map bandwidthText) ++ (printed 107 media.encryptKey.toList ++ printed 97 media.attributes))))

def zoneLines (zas : List SdpZoneAdjustments) : List Entry := if zas = [] then [] else [(122, zoneText zas)]

def SdpPayload.lines (sdp : SdpPayload) : List Entry :=
  (118, decimal sdp.protoVersion.toNat) :: (111, originText sdp.origin) :: (115, sdp.sessionName) ::
    (printed 105 sdp.information.toList ++ (printed 117 sdp.uri.toList ++ (printed 101 sdp.emails ++
      (printed 112 sdp.phones ++ (printed 99 (sdp.conn.map connectionText).toList ++
        (printed 98 (sdp.bw.map bandwidthText) ++ (sdp.times.flatMap SdpTime.lines ++
          (zoneLines sdp.zoneAdjustments ++ (printed 107 sdp.encryptKey.toList ++
            (printed 97 sdp.attributes ++ sdp.medias.flatMap SdpMedia.lines))))))))))

def sdpDump (sdp : SdpPayload) : List UInt8 := sdp.lines.flatMap fun entry => entry.octets ++ [10]

/-! ### Lines loaded again -/

/-- No line of that key comes next. -/
def Stops (key : UInt8) (rest : List Entry) : Prop := ∀ entry ∈ rest.head?, entry.1 ≠ key

section
variable {key : UInt8} {rest : List Entry}

theorem Stops.printed (behind : Stops key rest) {other : UInt8} (differs : other ≠ key) (values : List (List UInt8)) :
    Stops key (printed other values ++ rest) := by
  cases values with
  | nil => exact behind
  | cons value values =>
      intro entry first
      cases first
      exact differs

theorem stops_cons {own : UInt8} {value : List UInt8} (differs : own ≠ key) : Stops key ((own, value) :: rest) := by
  intro entry first
  cases first
  exact differs

theorem stops_nil (key : UInt8) : Stops key [] := fun _ none => nomatch none

theorem loadFacultativeStr_stops (stops : Stops key rest) : loadFacultativeStr key rest = (none, rest) := by
  cases rest with
  | nil => rfl
  | cons entry rest =>
      have other : ¬ entry.hasKey key := by simpa [Entry.hasKey] using stops entry rfl
      exact if_neg other

theorem loadFacultativeStr_printed (value : Option (List UInt8)) (stops : Stops key rest) :
    loadFacultativeStr key (printed key value.toList ++ rest) = (value, rest) := by
  cases value with
  | none => exact loadFacultativeStr_stops stops
  | some value =>
      have same : Entry.hasKey key (key, value) := decide_eq_true rfl
      exact if_pos same

theorem loadMultipleFacultativeStr_printed (values : List (List UInt8)) (stops : Stops key rest) :
    loadMultipleFacultativeStr key (printed key values ++ rest) = (values, rest) := by
  have all : ∀ entry ∈ printed key values, entry.hasKey key := by
    intro entry member
    obtain ⟨value, -, rfl⟩ := List.mem_map.mp member
    exact decide_eq_true rfl
  have ended : rest.takeWhile (Entry.hasKey key) = [] ∧ rest.dropWhile (Entry.hasKey key) = rest := by
    cases rest with
    | nil => exact ⟨rfl, rfl⟩
    | cons entry rest =>
        have other : ¬ entry.hasKey key := by simpa [Entry.hasKey] using stops entry rfl
        exact ⟨List.takeWhile_cons_of_neg other, List.dropWhile_cons_of_neg other⟩
  have texts : (printed key values).map Prod.snd = values := by
    rw [printed, List.map_map]
    exact List.map_id values
  rw [loadMultipleFacultativeStr, List.takeWhile_append_of_pos all, List.dropWhile_append_of_pos all, ended.1, ended.2,
    List.append_nil, texts]

theorem getConnInfo_printed (value : Option (List UInt8)) (stops : Stops 99 rest) :
    getConnInfo (printed 99 value.toList ++ rest) = (value.map connectionValue, rest) := by
  rw [getConnInfo, loadFacultativeStr_printed _ stops]

theorem getBandwidthInfo_printed (values : List (List UInt8)) (stops : Stops 98 rest) :
    getBandwidthInfo (printed 98 values ++ rest) = (values.map bandwidthValue, rest) := by
  rw [getBandwidthInfo, loadMultipleFacultativeStr_printed _ stops]

/-! ### The payload that is read again -/

def SdpTime.reread (time : SdpTime) : SdpTime := timeFields (timeText time) (time.repeats.map repeatText)

def SdpMedia.reread (media : SdpMedia) : SdpMedia where
  info := infoValue (infoText media.info)
  title := media.title
  conn := (media.conn.map connectionText).map connectionValue
  bw := (media.bw.map bandwidthText).map bandwidthValue
  encryptKey := media.encryptKey
  attributes := media.attributes

def SdpPayload.reread (sdp : SdpPayload) : SdpPayload where
  protoVersion := 0
  origin := originValue (originText sdp.origin)
  sessionName := sdp.sessionName
  information := sdp.information
  uri := sdp.uri
  emails := sdp.emails
  phones := sdp.phones
  conn := (sdp.conn.map connectionText).map connectionValue
  bw := (sdp.bw.map bandwidthText).map bandwidthValue
  times := sdp.times.map SdpTime.reread
  zoneAdjustments := if sdp.zoneAdjustments = [] then [] else zoneValue (zoneText sdp.zoneAdjustments)
  encryptKey := sdp.encryptKey
  attributes := sdp.attributes
  medias := sdp.medias.map SdpMedia.reread

theorem loadTimes_last {value : List UInt8} {repeats : List (List UInt8)} {entries : List Entry}
    (loaded : loadMultipleFacultativeStr 114 entries = (repeats, rest)) (stops : Stops 116 rest) :
    loadTimes value entries = ([timeFields value repeats], rest) := by
  rw [loadTimes, loaded]
  split
  · next same =>
      cases same
      exact absurd rfl (stops _ rfl)
  · rfl

theorem loadTimes_more {value next : List UInt8} {repeats : List (List UInt8)} {entries : List Entry}
    (loaded : loadMultipleFacultativeStr 114 entries = (repeats, (116, next) :: rest)) :
    loadTimes value entries = (timeFields value repeats :: (loadTimes next rest).1, (loadTimes next rest).2) := by
  rw [loadTimes, loaded]
  rfl

theorem loadTimes_printed (time : SdpTime) (times : List SdpTime) (last : Stops 116 rest) (repeats : Stops 114 rest) :
    loadTimes (timeText time) (printed 114 (time.repeats.map repeatText) ++ (times.flatMap SdpTime.lines ++ rest)) =
      ((time :: times).map SdpTime.reread, rest) := by
  induction times generalizing time with
  | nil => exact loadTimes_last (loadMultipleFacultativeStr_printed _ repeats) last
  | cons next times ih =>
      have more : (next :: times).flatMap SdpTime.lines ++ rest = (116, timeText next) ::
          (printed 114 (next.repeats.map repeatText) ++ (times.flatMap SdpTime.lines ++ rest)) := by
        rw [List.flatMap_cons, SdpTime.lines, List.cons_append, List.cons_append, List.append_assoc]
      rw [more, loadTimes_more (loadMultipleFacultativeStr_printed _ (stops_cons (by decide))), ih next]
      rfl

theorem loadMedia_printed (media : SdpMedia) (stops : ∀ key ∈ [105, 99, 98, 107, 97], Stops key rest) :
    loadMedia (infoText media.info) (printed 105 media.title.toList ++ (printed 99 (media.conn.map connectionText).toList ++
      (printed 98 (media.bw.map bandwidthText) ++ (printed 107 media.encryptKey.toList ++
        (printed 97 media.attributes ++ rest))))) = (media.reread, rest) := by
  obtain ⟨title, conn, bw, encryptKey, attributes, -⟩ :
      Stops 105 rest ∧ Stops 99 rest ∧ Stops 98 rest ∧ Stops 107 rest ∧ Stops 97 rest ∧ True := by
    simpa only [List.forall_mem_cons, List.not_mem_nil, false_implies, implies_true, and_true] using stops
  rw [loadMedia, loadFacultativeStr_printed]
  · dsimp only
    rw [getConnInfo_printed]
    · dsimp only
      rw [getBandwidthInfo_printed]
      · dsimp only
        rw [loadFacultativeStr_printed]
        · dsimp only
          rw [loadMultipleFacultativeStr_printed _ attributes]
          rfl
        · exact encryptKey.printed (by decide) _
      · exact (bw.printed (by decide) _).printed (by decide) _
    · exact ((conn.printed (by decide) _).printed (by decide) _).printed (by decide) _
  · exact (((title.printed (by decide) _).printed (by decide) _).printed (by decide) _).printed (by decide) _

theorem loadMedias_printed (medias : List SdpMedia) :
    loadMedias (medias.flatMap SdpMedia.lines) = medias.map SdpMedia.reread := by
  induction medias with
  | nil =>
      rw [List.flatMap_nil, loadMedias]
      · rfl
      · intro _ _ none
        exact absurd none (List.cons_ne_nil _ _).symm
  | cons media medias ih =>
      have stops : ∀ key ∈ ([105, 99, 98, 107, 97] : List UInt8), Stops key (medias.flatMap SdpMedia.lines) := by
        intro key among
        cases medias with
        | nil => exact stops_nil key
        | cons next medias =>
            refine stops_cons fun same => ?_
            rw [← same] at among
            exact absurd among (by decide)
      have loaded := loadMedia_printed media stops
      rw [List.flatMap_cons, SdpMedia.lines, List.cons_append, loadMedias]
      simp only [List.append_assoc, loaded, ih, List.map_cons]

end

/-! ### The whole dump -/

theorem loadHead_printed (origin : SdpOrigin) (sessionName : List UInt8) (information uri : Option (List UInt8))
    (emails phones : List (List UInt8)) (conn : Option (List UInt8)) (bw : List (List UInt8)) {rest : List Entry}
    (stops : ∀ key ∈ [105, 117, 101, 112, 99, 98], Stops key rest) :
    loadHead origin sessionName (printed 105 information.toList ++ (printed 117 uri.toList ++
      (printed 101 emails ++ (printed 112 phones ++ (printed 99 conn.toList ++ (printed 98 bw ++ rest)))))) =
      (⟨0, origin, sessionName, information, uri, emails, phones, conn.map connectionValue, bw.map bandwidthValue,
        [], [], none, [], []⟩, rest) := by
  obtain ⟨noInformation, noUri, noEmails, noPhones, noConn, noBw, -⟩ :
      Stops 105 rest ∧ Stops 117 rest ∧ Stops 101 rest ∧ Stops 112 rest ∧ Stops 99 rest ∧ Stops 98 rest ∧ True := by
    simpa only [List.forall_mem_cons, List.not_mem_nil, false_implies, implies_true, and_true] using stops
  rw [loadHead, loadFacultativeStr_printed]
  · dsimp only
    rw [loadFacultativeStr_printed]
    · dsimp only
      rw [loadMultipleFacultativeStr_printed]
      · dsimp only
        rw [loadMultipleFacultativeStr_printed]
        · dsimp only
          rw [getConnInfo_printed]
          · dsimp only
            rw [getBandwidthInfo_printed _ noBw]
          · exact noConn.printed (by decide) _
        · exact (noPhones.printed (by decide) _).printed (by decide) _
      · exact ((noEmails.printed (by decide) _).printed (by decide) _).printed (by decide) _
    · exact (((noUri.printed (by decide) _).printed (by decide) _).printed (by decide) _).printed (by decide) _
  · exact ((((noInformation.printed (by decide) _).printed (by decide) _).printed (by decide) _).printed
      (by decide) _).printed (by decide) _

theorem stops_medias {key : UInt8} (other : 109 ≠ key) (medias : List SdpMedia) :
    Stops key (medias.flatMap SdpMedia.lines) := by
  cases medias with
  | nil => exact stops_nil key
  | cons media medias => exact stops_cons other

theorem Stops.zoneLines {key : UInt8} {rest : List Entry} (behind : Stops key rest) (other : 122 ≠ key)
    (zas : List SdpZoneAdjustments) : Stops key (zoneLines zas ++ rest) := by
  unfold Sdp.zoneLines
  split
  · exact behind
  · exact stops_cons other

theorem loadFacultativeStr_zoneLines (zas : List SdpZoneAdjustments) {rest : List Entry} (stops : Stops 122 rest) :
    loadFacultativeStr 122 (zoneLines zas ++ rest) = (if zas = [] then none else some (zoneText zas), rest) := by
  unfold zoneLines
  split
  · exact loadFacultativeStr_stops stops
  · have same : Entry.hasKey 122 (122, zoneText zas) := rfl
    rw [List.singleton_append, loadFacultativeStr, if_pos same]

/-- Every field of the payload is read from the lines it was printed on. -/
theorem parseEntries_lines {sdp : SdpPayload} (version : sdp.protoVersion = 0) (timed : sdp.times ≠ []) :
    parseEntries sdp.lines = .accepted sdp.reread := by
  obtain ⟨time, times, same⟩ := List.exists_cons_of_ne_nil timed
  have zero : decimal sdp.protoVersion.toNat = [48] := by
    rw [version]
    decide +kernel
  have more : ∀ rest, sdp.times.flatMap SdpTime.lines ++ rest = (116, timeText time) ::
      (printed 114 (time.repeats.map repeatText) ++ (times.flatMap SdpTime.lines ++ rest)) := by
    intro rest
    rw [same, List.flatMap_cons, SdpTime.lines, List.cons_append, List.cons_append, List.append_assoc]
  have behind : ∀ key : UInt8, 122 ≠ key ∧ 107 ≠ key ∧ 97 ≠ key ∧ 109 ≠ key → Stops key
      (zoneLines sdp.zoneAdjustments ++ (printed 107 sdp.encryptKey.toList ++
        (printed 97 sdp.attributes ++ sdp.medias.flatMap SdpMedia.lines))) := fun key ⟨zone, encrypt, attributes, medias⟩ =>
    (((stops_medias medias sdp.medias).printed attributes _).printed encrypt _).zoneLines zone _
  have attributes := stops_medias (by decide : (109 : UInt8) ≠ 97) sdp.medias
  have encrypt := (stops_medias (by decide : (109 : UInt8) ≠ 107) sdp.medias).printed (by decide : (97 : UInt8) ≠ 107) sdp.attributes
  have zone := ((stops_medias (by decide : (109 : UInt8) ≠ 122) sdp.medias).printed (by decide : (97 : UInt8) ≠ 122)
    sdp.attributes).printed (by decide : (107 : UInt8) ≠ 122) sdp.encryptKey.toList
  rw [SdpPayload.lines, parseEntries, if_pos zero, more, loadHead_printed]
  · dsimp only
    rw [parseRest, loadTimes_printed time times (behind 116 (by decide)) (behind 114 (by decide))]
    dsimp only
    rw [loadFacultativeStr_zoneLines _ zone]
    dsimp only
    rw [loadFacultativeStr_printed _ encrypt]
    dsimp only
    rw [loadMultipleFacultativeStr_printed _ attributes]
    dsimp only
    rw [loadMedias_printed, ← same]
    unfold SdpPayload.reread
    congr 2
    split <;> rfl
  · intro key among
    refine stops_cons fun same => ?_
    rw [← same] at among
    exact absurd among (by decide)

end H264Streaming.Sdp
