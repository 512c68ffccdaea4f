import MerkleDir.Text.Utf8

namespace MerkleDir

abbrev Block := Vector UInt8 32

structure HashAlgorithm where
  hash : Bytes → Block

end MerkleDir
