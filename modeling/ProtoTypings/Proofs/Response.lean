import Mathlib.Data.List.TakeWhile
import ProtoTypings.Proofs.Wire
import ProtoTypings.Response

set_option autoImplicit false
set_option relaxedAutoImplicit false

/-!
Responses are read back as they were written. A response that hands over generated files is a number
field and a byte field for each file, and the bytes of a file are two fields again.
-/

namespace ProtoTypings

open Wire (scan varintLimit writeBytes writeNumber)

namespace OutputFile

def bytes (file : OutputFile) : Text := writeBytes 1 file.name ++ writeBytes 15 file.content

/-- The length of a file's bytes can be told in 64 bits. -/
def Fits (file : OutputFile) : Prop := file.bytes.length < varintLimit

private theorem Fits.parts {file : OutputFile} (fits : file.Fits) :
    file.name.length < varintLimit ∧ file.content.length < varintLimit := by
  simp only [Fits, bytes, writeBytes, List.length_append] at fits
  omega

private theorem scan_bytes {file : OutputFile} (fits : file.Fits) :
    scan file.bytes = ⟨[⟨1, .bytes file.name⟩, ⟨15, .bytes file.content⟩], true⟩ := by
  obtain ⟨name, content⟩ := fits.parts
  rw [bytes, Wire.scan_writeBytes ⟨by decide, by decide, by decide⟩ name,
    ← List.append_nil (writeBytes 15 file.content),
    Wire.scan_writeBytes ⟨by decide, by decide, by decide⟩ content, Wire.scan_nil]

end OutputFile

namespace Response

private theorem write_ofFiles (files : List OutputFile) :
    (ofFiles files).write =
      writeNumber 2 1 ++ (files.map OutputFile.bytes).flatMap (writeBytes 15) := by
  simp [write, ofFiles, writeText?, proto3Optional, List.flatMap_map, File.write, OutputFile.bytes]

private theorem complete_write_ofFiles (files : List OutputFile) :
    (scan (ofFiles files).write).complete = true ↔ ∀ file ∈ files, file.Fits := by
  rw [write_ofFiles, Wire.scan_writeNumber ⟨by decide, by decide, by decide⟩ (by decide),
    Wire.scan_flatMap_writeBytes ⟨by decide, by decide, by decide⟩]
  simp [OutputFile.Fits]

private theorem fields_write_ofFiles {files : List OutputFile} (fit : ∀ file ∈ files, file.Fits) :
    Wire.fields (ofFiles files).write =
      ⟨2, .number 1⟩ :: files.map fun file => ⟨15, .bytes file.bytes⟩ := by
  have all : (files.map OutputFile.bytes).takeWhile (fun content => content.length < varintLimit) =
      files.map OutputFile.bytes := by
    rw [List.takeWhile_eq_self_iff]
    simpa [OutputFile.Fits] using fit
  rw [Wire.fields, write_ofFiles,
    Wire.scan_writeNumber ⟨by decide, by decide, by decide⟩ (by decide),
    Wire.scan_flatMap_writeBytes ⟨by decide, by decide, by decide⟩, all, List.map_map]
  rfl

private theorem checkForm_bytes (depth : Nat) {file : OutputFile} (fits : file.Fits) :
    Wire.checkForm (depth + 1) .outputFile file.bytes = .ok () := by
  rw [Wire.checkForm_succ_eq_ok, file.scan_bytes fits]
  refine ⟨?_, rfl⟩
  rw [List.forall_mem_cons, List.forall_mem_singleton]
  exact ⟨rfl, rfl⟩

private theorem checkForm_write_ofFiles (depth : Nat) (files : List OutputFile) :
    Wire.checkForm (depth + 2) .response (ofFiles files).write = .ok () ↔
      ∀ file ∈ files, file.Fits := by
  rw [Wire.checkForm_succ_eq_ok, complete_write_ofFiles]
  refine ⟨And.right, fun fit => ⟨?_, fit⟩⟩
  change ∀ field ∈ Wire.fields (ofFiles files).write, _
  rw [fields_write_ofFiles fit, List.forall_mem_cons, List.forall_mem_map]
  exact ⟨rfl, fun file member => checkForm_bytes depth (fit file member)⟩

private theorem readRecord_write_ofFiles (files : List OutputFile) {record : List Wire.Field} :
    Wire.readRecord .response (ofFiles files).write = .ok record ↔
      (∀ file ∈ files, file.Fits) ∧ Wire.fields (ofFiles files).write = record := by
  have depth : Wire.maxDepth = 9998 + 2 := rfl
  rw [Wire.readRecord, Wire.requiresNothing_response, depth]
  cases checked : Wire.checkForm (9998 + 2) .response (ofFiles files).write with
  | ok passed =>
    have fit := (checkForm_write_ofFiles 9998 files).mp checked
    simpa using fun _ => fit
  | error flaw => simp [← checkForm_write_ofFiles 9998 files, checked]

private theorem ofRecord_bytes {file : OutputFile} (fits : file.Fits) :
    File.ofRecord (Wire.fields file.bytes) = ⟨some file.name, some file.content⟩ := by
  rw [Wire.fields, file.scan_bytes fits]
  rfl

private theorem ofRecord_fields {files : List OutputFile} (fit : ∀ file ∈ files, file.Fits) :
    ofRecord (⟨2, .number 1⟩ :: files.map fun file => ⟨15, .bytes file.bytes⟩) = ofFiles files := by
  have each : files.map (fun file => File.ofRecord (Wire.fields file.bytes)) =
      files.map fun file => ⟨some file.name, some file.content⟩ :=
    List.map_congr_left fun file member => ofRecord_bytes (fit file member)
  simp [ofRecord, ofFiles, Wire.text?, Wire.number?, Wire.recordsOf, proto3Optional,
    Function.comp_def, each]

private theorem read_eq_ok {s : Text} {response : Response} :
    read s = .ok response ↔
      ∃ record, Wire.readRecord .response s = .ok record ∧ ofRecord record = response := by
  rw [read]
  cases Wire.readRecord .response s <;> simp

/-- A response with generated files, written and read back, has the one feature, no error, and the
same files in the same order, each with its name and its content. Only bytes that no machine holds
would not come back: a file whose length has more than 64 bits. -/
theorem read_send_ofFiles (files : List OutputFile) :
    ((ofFiles files).send none >>= read) = .ok {
      error := none
      features := some 1
      files := files.map fun file => { name := some file.name, content := some file.content } } ↔
    ∀ file ∈ files, file.bytes.length < varintLimit := by
  change read _ = .ok (ofFiles files) ↔ ∀ file ∈ files, file.Fits
  rw [read_eq_ok]
  constructor
  · rintro ⟨record, passed, -⟩
    exact ((readRecord_write_ofFiles files).mp passed).1
  · intro fit
    refine ⟨_, (readRecord_write_ofFiles files).mpr ⟨fit, fields_write_ofFiles fit⟩, ?_⟩
    exact ofRecord_fields fit

end Response

end ProtoTypings
