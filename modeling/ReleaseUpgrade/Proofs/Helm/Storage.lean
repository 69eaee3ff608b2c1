import ReleaseUpgrade.Helm.Release
import ReleaseUpgrade.Proofs.Base64
import ReleaseUpgrade.Proofs.Json.Path
import ReleaseUpgrade.Proofs.Json.Record

/-!
# Releases in storage

A stored revision is JSON, perhaps compressed, as base64 that may be broken into lines.  Which of
the two it is shows in its first bytes: JSON never starts as a compressed file does, and what can be
decompressed always does.

* `HelmRelease.Spaced`       text with blanks put into it;
* `HelmRelease.Describes`    what a document says of a revision;
* `HelmRelease.ofJson?_eq_some_iff`  the revision of a document is the one that it describes;
* `HelmRelease.stored_alike`  both forms of storage hold the same revision.
-/

namespace ReleaseUpgrade

namespace Bits

theorem toList_of_take? {n : Nat} {out taken : ByteArray} {b b' : Bits}
    (h : take? n out b = some (taken, b')) :
    taken.data.toList =
      out.data.toList ++ (b.bytes.data.toList.drop (b.position / 8)).take n := by
  induction n generalizing out b with
  | zero =>
    cases h
    rw [List.take_zero, List.append_nil]
  | succ n ih =>
    rw [take?] at h
    obtain ⟨⟨x, rest⟩, hx, h⟩ := Option.bind_eq_some_iff.mp h
    rw [byte?] at hx
    split at hx
    · rename_i hlt
      cases hx
      have hpos : (b.position + 8) / 8 = b.position / 8 + 1 := Nat.add_div_right _ (by decide)
      have hlt' : b.position / 8 < b.bytes.data.toList.length := hlt
      rw [ih h, hpos, List.drop_eq_getElem_cons hlt', List.take_succ_cons]
      show (out.data.push _).toList ++ _ = _
      rw [Array.toList_push, List.append_assoc]
      rfl
    · cases hx

end Bits

/-- what can be decompressed starts like a compressed file -/
theorem Gzip.isMember_of_decompress? {bytes content : List UInt8}
    (h : decompress? bytes = some content) : isMember bytes = true := by
  obtain ⟨b, hb, _⟩ := Option.bind_eq_some_iff.mp h
  obtain ⟨⟨head, rest⟩, hhead, hb⟩ := Option.bind_eq_some_iff.mp hb
  have htaken : head.data.toList = bytes.take 10 := by simpa using Bits.toList_of_take? hhead
  simp only [htaken, List.take_take] at hb
  split at hb
  · rename_i hmagic
    exact (Bool.and_eq_true_iff.mp hmagic).1
  · cases hb

/-- no document starts with the first byte of a compressed file -/
theorem Json.ofBytes?_magic (rest : List UInt8) : Json.ofBytes? (0x1F :: rest) = none := rfl

theorem Gzip.isMember_of_ofBytes? {bytes : List UInt8} {j : Json}
    (h : Json.ofBytes? bytes = some j) : isMember bytes = false := by
  refine decide_eq_false fun hmagic => ?_
  match bytes with
  | [] => cases hmagic
  | b :: rest =>
    obtain ⟨rfl, _⟩ := List.cons.inj hmagic
    rw [Json.ofBytes?_magic] at h
    cases h

namespace HelmRelease

/-- the version of the chart of a stored revision, empty if some part on the way to it is missing -/
inductive ChartVersion (r : Record) : String → Prop
  | noChart : r.Absent "chart" → ChartVersion r ""
  | noMetadata (c chart) : r.get? "chart" = some c → Record.open? ["metadata"] c = some chart →
      chart.Absent "metadata" → ChartVersion r ""
  | noVersion (c chart m metadata) : r.get? "chart" = some c →
      Record.open? ["metadata"] c = some chart → chart.get? "metadata" = some m →
      Record.open? ["version"] m = some metadata → metadata.get? "version" = none →
      ChartVersion r ""
  | version (c chart m metadata v) : r.get? "chart" = some c →
      Record.open? ["metadata"] c = some chart → chart.get? "metadata" = some m →
      Record.open? ["version"] m = some metadata → metadata.get? "version" = some (.str v) →
      ChartVersion r v

/-- what the fields of a stored document say of a revision -/
structure Recorded (r : Record) (release : HelmRelease) : Prop where
  name : r.get? "name" = some (.str release.name)
  ns : (r.get? "namespace" = none ∧ release.ns = "") ∨
    r.get? "namespace" = some (.str release.ns)
  revision : (r.get? "version" = none ∧ release.revision = 0) ∨
    r.get? "version" = some (.int release.revision) ∧ Json.IsInt64 release.revision
  chart : ChartVersion r release.chartVersion
  config : ((r.get? "config" = none ∨ r.get? "config" = some .null) ∧ release.config = []) ∨
    ∃ fields, r.get? "config" = some (.obj fields) ∧ (Json.obj fields).readable = true ∧
      (Json.obj fields).sorted = .obj release.config

/-- the document is that of a stored revision -/
def Describes (j : Json) (release : HelmRelease) : Prop :=
  ∃ r, Record.open? ["name", "namespace", "version", "chart", "config"] j = some r ∧
    Recorded r release

theorem ne_null_of_open? {names : List String} {j : Json} {r : Record}
    (h : Record.open? names j = some r) : j ≠ .null := by
  rintro rfl
  cases h

theorem storedMetadata?_eq_some_iff {m : Json} {v : String} :
    storedMetadata? m = some v ↔ ∃ metadata, Record.open? ["version"] m = some metadata ∧
      ((metadata.get? "version" = none ∧ v = "") ∨ metadata.get? "version" = some (.str v)) := by
  simp only [storedMetadata?, Option.bind_eq_bind, Option.bind_eq_some_iff,
    Record.defaulted_eq_some_iff, Json.str?_eq_some_iff, exists_eq_right]

theorem storedChart?_eq_some_iff {c : Json} {x : Option String} :
    storedChart? c = some x ↔ ∃ chart, Record.open? ["metadata"] c = some chart ∧
      ((chart.Absent "metadata" ∧ x = none) ∨
        ∃ m v, chart.get? "metadata" = some m ∧ storedMetadata? m = some v ∧ x = some v) := by
  simp only [storedChart?, Option.bind_eq_bind, Option.bind_eq_some_iff,
    Record.nullable_eq_some_iff]
  refine exists_congr fun chart => and_congr_right fun _ => or_congr_right ?_
  constructor
  · rintro ⟨m, v, hm, _, hv, rfl⟩
    exact ⟨m, v, hm, hv, rfl⟩
  · rintro ⟨m, v, hm, hv, rfl⟩
    obtain ⟨_, hopen, _⟩ := storedMetadata?_eq_some_iff.mp hv
    exact ⟨m, v, hm, ne_null_of_open? hopen, hv, rfl⟩

/-- the version of the chart is what its levels are read for, one after the other -/
theorem chartVersion_iff {r : Record} {v : String} :
    ChartVersion r v ↔
      ∃ chart, r.nullable "chart" storedChart? = some chart ∧ chart.join.getD "" = v := by
  simp only [Record.nullable_eq_some_iff]
  constructor
  · intro h
    cases h with
    | noChart hchart => exact ⟨none, .inl ⟨hchart, rfl⟩, rfl⟩
    | noMetadata c chart hc hopen hmetadata =>
      have hread := storedChart?_eq_some_iff.mpr ⟨chart, hopen, .inl ⟨hmetadata, rfl⟩⟩
      exact ⟨some none, .inr ⟨c, none, hc, ne_null_of_open? hopen, hread, rfl⟩, rfl⟩
    | noVersion c chart m metadata hc hopen hm hopen' hnone =>
      have hv := storedMetadata?_eq_some_iff.mpr ⟨metadata, hopen', .inl ⟨hnone, rfl⟩⟩
      have hread := storedChart?_eq_some_iff.mpr ⟨chart, hopen, .inr ⟨m, _, hm, hv, rfl⟩⟩
      exact ⟨some (some ""), .inr ⟨c, _, hc, ne_null_of_open? hopen, hread, rfl⟩, rfl⟩
    | version c chart m metadata v hc hopen hm hopen' hsome =>
      have hv := storedMetadata?_eq_some_iff.mpr ⟨metadata, hopen', .inr hsome⟩
      have hread := storedChart?_eq_some_iff.mpr ⟨chart, hopen, .inr ⟨m, _, hm, hv, rfl⟩⟩
      exact ⟨some (some v), .inr ⟨c, _, hc, ne_null_of_open? hopen, hread, rfl⟩, rfl⟩
  · rintro ⟨x, ⟨hchart, rfl⟩ | ⟨c, y, hc, _, hread, rfl⟩, rfl⟩
    · exact .noChart hchart
    obtain ⟨chart, hopen, ⟨hmetadata, rfl⟩ | ⟨m, v, hm, hv, rfl⟩⟩ :=
      storedChart?_eq_some_iff.mp hread
    · exact .noMetadata c chart hc hopen hmetadata
    obtain ⟨metadata, hopen', ⟨hnone, rfl⟩ | hsome⟩ := storedMetadata?_eq_some_iff.mp hv
    · exact .noVersion c chart m metadata hc hopen hm hopen' hnone
    · exact .version c chart m metadata v hc hopen hm hopen' hsome

theorem storedConfig?_eq_some_iff {j : Json} {d : Dict Json} :
    storedConfig? j = some d ↔
      ∃ fields, j = .obj fields ∧ j.readable = true ∧ j.sorted = .obj d := by
  rw [storedConfig?, Json.value?]
  cases hreadable : j.readable with
  | false => simp
  | true =>
    cases j with
    | obj fields => simp [Json.sorted]
    | _ => simp [Json.sorted]

theorem config_iff {r : Record} {config : Dict Json} :
    (∃ x, r.optional "config" storedConfig? = some x ∧ x.getD [] = config) ↔
      (((r.get? "config" = none ∨ r.get? "config" = some .null) ∧ config = []) ∨
        ∃ fields, r.get? "config" = some (.obj fields) ∧ (Json.obj fields).readable = true ∧
          (Json.obj fields).sorted = .obj config) := by
  simp only [Record.optional_eq_some_iff, storedConfig?_eq_some_iff]
  constructor
  · rintro ⟨x, ⟨hnone, rfl⟩ | ⟨j, d, hj, _, ⟨fields, rfl, hread⟩, rfl⟩, rfl⟩
    · exact .inl ⟨hnone, rfl⟩
    · exact .inr ⟨fields, hj, hread⟩
  · rintro (⟨hnone, rfl⟩ | ⟨fields, hj, hread⟩)
    · exact ⟨none, .inl ⟨hnone, rfl⟩, rfl⟩
    · exact ⟨some config, .inr ⟨_, config, hj, nofun, ⟨fields, rfl, hread⟩, rfl⟩, rfl⟩

/-- the revision that is read from a document is the one that it describes -/
theorem ofJson?_eq_some_iff {j : Json} {release : HelmRelease} :
    ofJson? j = some release ↔ Describes j release := by
  simp only [ofJson?, Option.bind_eq_bind, Option.bind_eq_some_iff,
    Record.required_eq_some_iff, Record.defaulted_eq_some_iff, Json.str?_eq_some_iff,
    Json.int64?_eq_some_iff, exists_eq_right]
  refine exists_congr fun r => and_congr_right fun _ => ?_
  constructor
  · rintro ⟨name, hname, ns, hns, revision, hrevision, chart, hchart, config, hconfig, heq⟩
    cases heq
    refine ⟨hname, hns, ?_, chartVersion_iff.mpr ⟨chart, hchart, rfl⟩, config_iff.mp
      ⟨config, hconfig, rfl⟩⟩
    exact hrevision.imp_right fun ⟨j, hj, heq, hfits⟩ => ⟨heq ▸ hj, hfits⟩
  · rintro ⟨hname, hns, hrevision, hchart, hconfig⟩
    obtain ⟨chart, hchart, hversion⟩ := chartVersion_iff.mp hchart
    obtain ⟨config, hconfig, hvalues⟩ := config_iff.mpr hconfig
    refine ⟨release.name, hname, release.ns, hns, release.revision, ?_, chart, hchart, config,
      hconfig, ?_⟩
    · exact hrevision.imp_right fun ⟨hj, hfits⟩ => ⟨_, hj, rfl, hfits⟩
    · rw [hversion, hvalues]

/-- blanks have been put into a text -/
inductive Spaced : (text spaced : List UInt8) → Prop
  | nil : Spaced [] []
  | char (b) {text spaced} : Spaced text spaced → Spaced (b :: text) (b :: spaced)
  | blank (b) {text spaced} : isAsciiBlank b = true → Spaced text spaced → Spaced text (b :: spaced)

theorem filter_of_spaced {text spaced : List UInt8} (h : Spaced text spaced)
    (htext : ∀ b ∈ text, isAsciiBlank b = false) :
    spaced.filter (fun b => !isAsciiBlank b) = text := by
  induction h with
  | nil => rfl
  | char b _ ih =>
    obtain ⟨hb, htext⟩ := List.forall_mem_cons.mp htext
    rw [List.filter_cons, hb, Bool.not_false, if_pos rfl, ih htext]
  | blank b hb _ ih =>
    rw [List.filter_cons, hb, Bool.not_true, if_neg Bool.false_ne_true, ih htext]

/-- whatever is left when blanks are taken out is what they have been put into -/
theorem spaced_filter (spaced : List UInt8) :
    Spaced (spaced.filter fun b => !isAsciiBlank b) spaced := by
  induction spaced with
  | nil => exact .nil
  | cons b spaced ih =>
    rw [List.filter_cons]
    cases hb : isAsciiBlank b with
    | true => exact .blank b hb ih
    | false => exact .char b ih

theorem isAsciiBlank_digit (n : Nat) : isAsciiBlank (Base64.digit n) = false := by
  have hall : ∀ n ∈ List.range 64, isAsciiBlank (Base64.digit n) = false := by decide
  by_cases h : n < 64
  · exact hall n (List.mem_range.mpr h)
  · have hslash : Base64.digit n = 47 := by
      rw [Base64.digit, if_neg (by omega), if_neg (by omega), if_neg (by omega), if_neg (by omega)]
    rw [hslash]
    rfl

theorem decode?_of_spaced {bytes spaced : List UInt8}
    (h : Spaced (Base64.encodeBytes bytes) spaced) :
    Base64.decode? (spaced.filter fun b => !isAsciiBlank b) = some bytes := by
  rw [filter_of_spaced h, Base64.decode?_encodeBytes]
  intro b hb
  obtain rfl | ⟨n, rfl⟩ := Base64.mem_encodeBytes hb
  · rfl
  · exact isAsciiBlank_digit n

/-- JSON in storage is not taken for compressed data -/
theorem payload_plain {bytes spaced : List UInt8} {j : Json} (hj : Json.ofBytes? bytes = some j)
    (h : Spaced (Base64.encodeBytes bytes) spaced) : payload spaced = .ok bytes := by
  rw [payload, decode?_of_spaced h]
  simp only
  rw [Gzip.isMember_of_ofBytes? hj]
  rfl

theorem payload_packed {bytes content spaced : List UInt8}
    (hcontent : Gzip.decompress? bytes = some content)
    (h : Spaced (Base64.encodeBytes bytes) spaced) : payload spaced = .ok content := by
  rw [payload, decode?_of_spaced h]
  simp only
  rw [Gzip.isMember_of_decompress? hcontent, if_pos rfl, hcontent]

/-- the bytes that a secret holds of a release -/
def stored? (s : Secret) : Option (List UInt8) := Dict.get? "release" (s.data.getD [])

theorem ofSecret_eq (release : String) (s : Secret) :
    ofSecret release s = ((stored? s).elim (.error .missing) fun bytes =>
      payload bytes >>= ofPayload).mapError (.helmRelease release) := by
  unfold ofSecret stored?
  cases Dict.get? "release" (s.data.getD []) with
  | none => rfl
  | some bytes =>
    rw [Option.elim_some]
    dsimp only
    cases payload bytes >>= ofPayload <;> rfl

theorem ofPayload_eq_ok_iff {bytes : List UInt8} {r : HelmRelease} :
    ofPayload bytes = .ok r ↔ ∃ j, Json.ofBytes? bytes = some j ∧ Describes j r := by
  simp only [← ofJson?_eq_some_iff, ← Option.bind_eq_some_iff, ofPayload]
  cases (Json.ofBytes? bytes).bind ofJson? <;> simp

theorem ofSecret_of_payload {release : String} {s : Secret} {spaced bytes : List UInt8}
    (hs : stored? s = some spaced) (hbytes : payload spaced = .ok bytes) :
    ofSecret release s = (ofPayload bytes).mapError (.helmRelease release) := by
  rw [ofSecret_eq, hs, Option.elim_some, hbytes]
  rfl

/-- a secret holds a revision that its data describes, or there is an error with its name -/
theorem ofSecret_cases (release : String) (s : Secret) :
    (∃ spaced t j r, stored? s = some spaced ∧ payload spaced = .ok t ∧
      Json.ofBytes? t = some j ∧ Describes j r ∧ ofSecret release s = .ok r) ∨
    ∃ fault, ofSecret release s = .error (.helmRelease release fault) := by
  cases hs : stored? s with
  | none =>
    refine .inr ⟨.missing, ?_⟩
    rw [ofSecret_eq, hs]
    rfl
  | some spaced =>
    cases ht : payload spaced with
    | error fault =>
      refine .inr ⟨fault, ?_⟩
      rw [ofSecret_eq, hs, Option.elim_some, ht]
      rfl
    | ok t =>
      rw [ofSecret_of_payload hs ht]
      cases hr : ofPayload t with
      | error fault => exact .inr ⟨fault, rfl⟩
      | ok r =>
        obtain ⟨j, hj, hr⟩ := ofPayload_eq_ok_iff.mp hr
        exact .inl ⟨spaced, t, j, r, rfl, ht, hj, hr, rfl⟩

/-- both forms of storage hold the same revision -/
theorem stored_alike (release : String) :
    (∀ t j z plain packed s s', Json.ofBytes? t = some j → Gzip.decompress? z = some t →
      Spaced (Base64.encodeBytes t) plain → Spaced (Base64.encodeBytes z) packed →
      stored? s = some plain → stored? s' = some packed →
      ofSecret release s = ofSecret release s' ∧
        ∀ r, ofSecret release s = .ok r ↔ Describes j r) ∧
    ∀ s, (∃ spaced t j r, stored? s = some spaced ∧ payload spaced = .ok t ∧
        Json.ofBytes? t = some j ∧ Describes j r ∧ ofSecret release s = .ok r) ∨
      ∃ fault, ofSecret release s = .error (.helmRelease release fault) := by
  refine ⟨?_, ofSecret_cases release⟩
  intro t j z plain packed s s' hj hz hplain hpacked hs hs'
  have hread : ofSecret release s = _ := ofSecret_of_payload hs (payload_plain hj hplain)
  have hread' : ofSecret release s' = _ := ofSecret_of_payload hs' (payload_packed hz hpacked)
  refine ⟨hread.trans hread'.symm, fun r => ?_⟩
  have hdescribed : ofPayload t = .ok r ↔ Describes j r := by
    rw [ofPayload_eq_ok_iff]
    refine ⟨fun ⟨j', hj', hr⟩ => ?_, fun hr => ⟨j, hj, hr⟩⟩
    cases hj.symm.trans hj'
    exact hr
  rw [hread, ← hdescribed]
  cases ofPayload t with
  | error => exact ⟨nofun, nofun⟩
  | ok r' =>
    constructor
    · intro h
      exact congrArg Except.ok (Except.ok.inj h)
    · intro h
      exact congrArg Except.ok (Except.ok.inj h)

namespace Metal

/-- a stored revision, most of it left out -/
def content : List UInt8 :=
  ("\x7b\"name\":\"metal3\",\"chart\":" ++
    "\x7b\"metadata\":\x7b\"version\":\"0.7\"\x7d\x7d\x7d").toUTF8.toList

def document : Json :=
  .obj [("name", .str "metal3"), ("chart", .obj [("metadata", .obj [("version", .str "0.7")])])]

def plain : List UInt8 :=
  ("eyJuYW1lIjoibWV0YWwzIiwiY2hhcnQiOns\r\n" ++
    "ibWV0YWRhdGEiOnsidmVyc2lvbiI6IjAuNyJ9fX0=\r\n").toUTF8.toList

/-- the content, compressed, as base64 that starts with a blank -/
def packed : List UInt8 :=
  (" H4sIAAAAAAAA/6tWykvMTVWyUspNLUnMMVbSUUrOSCwqUbKqBoukJJYkgthl" ++
    "qUXFmfl5QHUGeuZKtbW1AAgCJRg4AAAA").toUTF8.toList

def compressed : List UInt8 :=
  (Base64.decode? (packed.filter fun b => !isAsciiBlank b)).getD []

def plainSecret : Secret := { data := some [("release", plain)] }

def packedSecret : Secret := { data := some [("release", packed)] }

theorem ofBytes?_content : Json.ofBytes? content = some document := by
  decide +kernel

theorem decompress?_compressed : Gzip.decompress? compressed = some content := by
  decide +kernel

theorem spaced_plain : Spaced (Base64.encodeBytes content) plain := by
  have hfilter : plain.filter (fun b => !isAsciiBlank b) = Base64.encodeBytes content := by
    decide +kernel
  rw [← hfilter]
  exact spaced_filter plain

theorem spaced_packed : Spaced (Base64.encodeBytes compressed) packed := by
  have hfilter : packed.filter (fun b => !isAsciiBlank b) = Base64.encodeBytes compressed := by
    decide +kernel
  rw [← hfilter]
  exact spaced_filter packed

end Metal

open Metal in
theorem stored_alike_metal :
    ofSecret "metal3" plainSecret = ofSecret "metal3" packedSecret ∧
      ∀ r, ofSecret "metal3" plainSecret = .ok r ↔ Describes document r :=
  (stored_alike "metal3").1 content document compressed plain packed plainSecret packedSecret
    ofBytes?_content decompress?_compressed spaced_plain spaced_packed rfl rfl

end HelmRelease

end ReleaseUpgrade
