import TypeAtlas.Proofs.Text.Decoding
import TypeAtlas.Schema.Survey

namespace TypeAtlas.Schema

open Text

-- A text gives the same schema as its bytes do. Any bytes give the schema of the one text that they
-- are read as, with the digest of the bytes themselves.
theorem ofDumpBytes_decoded (rules : Rules) :
    (∀ text, ofDumpBytes rules (encode text) = ofDump rules text) ∧
      ∀ bytes, ∃ text, (∀ other, Decodes bytes other ↔ other = text) ∧
        ofDumpBytes rules bytes = { ofDump rules text with hash := Sha256.hexDigest bytes } := by
  constructor
  · intro text
    rw [ofDumpBytes, decodeLossy_encode, ofDump]
  · intro bytes
    refine ⟨decodeLossy bytes, fun other => ?_, rfl⟩
    rw [decodes_iff, eq_comm]

end TypeAtlas.Schema
