/-!
# Why a zip archive or one of its entries cannot be read
-/

namespace Classpath
namespace Zip

/-- Why reading stopped. -/
inductive ZipError
  | tooShort
  | noEndRecord
  | truncated
  | severalDisks
  | badDirectoryOffset
  | badDirectoryHeader
  | badEncryptionField
  | notListed
  | badLocalHeader
  | encrypted
  | unsupportedMethod
  | corruptData
  | badChecksum
deriving DecidableEq, Repr

/-- The wording of an error. -/
def ZipError.message : ZipError → String
  | tooShort => "invalid Zip archive: Invalid zip header"
  | noEndRecord => "invalid Zip archive: Could not find central directory end"
  | truncated => "failed to fill whole buffer"
  | severalDisks => "unsupported Zip archive: Support for multi-disk files is not implemented"
  | badDirectoryOffset => "invalid Zip archive: Invalid central directory size or offset"
  | badDirectoryHeader => "invalid Zip archive: Invalid Central Directory header"
  | badEncryptionField => "invalid Zip archive: AES encryption without AES extra data field"
  | notListed => "specified file not found in archive"
  | badLocalHeader => "invalid Zip archive: Invalid local file header"
  | encrypted => "unsupported Zip archive: Password required to decrypt file"
  | unsupportedMethod => "unsupported Zip archive: Compression method not supported"
  | corruptData => "corrupt deflate stream"
  | badChecksum => "Invalid checksum"

end Zip
end Classpath
