import JarSurvey.Report.Schema
import JarSurvey.Proofs.Digest.Sha1
import JarSurvey.Proofs.Text.Utf8

/-!
# The heading tells the version

A report is recognised by the digest of its heading alone, so reading depends on the three digests being
different.  They are computed here (`headingHash_v5`, `headingHash_v6`, `headingHash_v7`), they differ
(`headingHash_injective`), and so **the heading of a version is recognised** (`detect_heading`).
-/

namespace JarSurvey.Report

open Text.Utf8

namespace Schema

/-! ## The bytes of a heading -/

/-- The bytes of a heading, put together from the bytes of its names. -/
def headingBytes (schema : Schema) : List UInt8 :=
  (encode "\t").intercalate ((schema.columns.map Column.name ++
    [Family.javax.label, Family.jakarta.label] ++ Namespace.all.map Namespace.name).map encode)

lemma encode_heading (schema : Schema) : encode schema.heading = schema.headingBytes := by
  rw [heading, joinFields, encode_intercalate, headingBytes]

/-- A heading is a single line. -/
lemma isLine_heading (schema : Schema) : ∀ c ∈ schema.heading.toList, c ≠ '\n' ∧ c ≠ '\r' := by
  have hbytes : 10 ∉ schema.headingBytes ∧ 13 ∉ schema.headingBytes := by
    cases schema <;> decide +kernel
  rw [← encode_heading] at hbytes
  intro c hc
  refine ⟨?_, ?_⟩
  · rintro rfl
    exact hbytes.1 ((mem_encode_iff (by decide)).mpr hc)
  · rintro rfl
    exact hbytes.2 ((mem_encode_iff (by decide)).mpr hc)

/-! ## The digests of the headings -/

lemma headingHash_of_digest {schema : Schema} {a b c d e : Nat}
    (h : Digest.Sha1.Numbers.digest schema.headingBytes = ⟨a, b, c, d, e⟩) :
    schema.headingHash = Text.Hex.ofBytes ([a, b, c, d, e].flatMap (Digest.Sha1.bytesOf 4)) := by
  rw [headingHash, Digest.Sha1.ofText, Digest.Sha1.ofBytes_eq]
  have hbytes : schema.heading.toUTF8.data.toList = schema.headingBytes := encode_heading schema
  rw [hbytes, h]

set_option maxRecDepth 10000 in
lemma headingHash_v5 : v5.headingHash = "e44217290afb4cf2e0e91b555a12ccd52247d55c" := by
  have hdigest : Digest.Sha1.Numbers.digest v5.headingBytes =
      ⟨0xe4421729, 0x0afb4cf2, 0xe0e91b55, 0x5a12ccd5, 0x2247d55c⟩ := by
    decide +kernel
  rw [headingHash_of_digest hdigest]
  decide

set_option maxRecDepth 10000 in
lemma headingHash_v6 : v6.headingHash = "47ce16f9e99c1c58861f719408746cc564271563" := by
  have hdigest : Digest.Sha1.Numbers.digest v6.headingBytes =
      ⟨0x47ce16f9, 0xe99c1c58, 0x861f7194, 0x08746cc5, 0x64271563⟩ := by
    decide +kernel
  rw [headingHash_of_digest hdigest]
  decide

set_option maxRecDepth 10000 in
lemma headingHash_v7 : v7.headingHash = "13293e0009dbcde01975c7b336583c4f9b48b95a" := by
  have hdigest : Digest.Sha1.Numbers.digest v7.headingBytes =
      ⟨0x13293e00, 0x09dbcde0, 0x1975c7b3, 0x36583c4f, 0x9b48b95a⟩ := by
    decide +kernel
  rw [headingHash_of_digest hdigest]
  decide

/-- **The three digests differ.** -/
lemma headingHash_injective : Function.Injective headingHash := by
  have h56 : v5.headingHash ≠ v6.headingHash := by
    rw [headingHash_v5, headingHash_v6]
    decide
  have h57 : v5.headingHash ≠ v7.headingHash := by
    rw [headingHash_v5, headingHash_v7]
    decide
  have h67 : v6.headingHash ≠ v7.headingHash := by
    rw [headingHash_v6, headingHash_v7]
    decide
  intro schema other h
  generalize headingHash = hash at *
  cases schema <;> cases other <;> simp_all

lemma find?_all {hash : Schema → String} (hinj : Function.Injective hash) (schema : Schema) :
    all.find? (hash · == hash schema) = some schema := by
  cases schema <;> simp [all, hinj.eq_iff]

/-- **The heading of a version is recognised.** -/
lemma detect_heading (schema : Schema) : detect schema.heading = .ok schema := by
  have hfind : ofHash? schema.headingHash = some schema := find?_all headingHash_injective schema
  rw [detect, ← headingHash, hfind, Option.elim_some]

end Schema

end JarSurvey.Report
