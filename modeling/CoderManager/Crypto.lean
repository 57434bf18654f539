import CoderManager.Lib.Vault
import Mathlib.Algebra.Group.Nat.Defs

/-!
# Stored credentials

The four ciphers of stored credentials share one key. Each binds its envelopes to a text
of its own and to the identifier of the row: AES-GCM authenticates both.
-/
namespace CoderManager
open Vaults (Bytes Aead)

def envelopeVersion : UInt8 := 1

def nonceLength : Nat := 12

def keyLength : Nat := 32

inductive CryptoError where
  | cryptoConfigurationError
  | passwordDecryptionError
  | kubeconfigDecryptionError
  | instancePasswordDecryptionError
  | templateParameterDecryptionError
  deriving DecidableEq, Repr

/-- The 128 bits of a row's UUID. -/
abbrev RowId := BitVec 128

def bigEndian : Nat → Nat → Bytes
  | 0, _ => []
  | n + 1, v => bigEndian n (v / 256) ++ [.ofNat v]

def RowId.bytes (id : RowId) : Bytes := bigEndian 16 id.toNat

/-- How values become bytes: as UTF-8, or as they are. -/
structure Codec (α : Type) where
  encode : α → Bytes
  decode : Bytes → Option α
  decode_encode : ∀ value, decode (encode value) = some value
  encode_eq : ∀ bytes value, decode bytes = some value → encode value = bytes

def Codec.text : Codec String where
  encode s := s.toUTF8.data.toList
  decode bs := String.fromUTF8? ⟨bs.toArray⟩
  decode_encode := by
    intro s
    have h : (⟨s.toUTF8.data.toList.toArray⟩ : ByteArray) = s.toByteArray := rfl
    rw [h, String.fromUTF8?, dif_pos s.isValidUTF8]
    rfl
  encode_eq := by
    intro bs s h
    unfold String.fromUTF8? at h
    split at h
    · cases h
      rfl
    · cases h

def Codec.raw : Codec Bytes where
  encode := id
  decode := some
  decode_encode := fun _ => rfl
  encode_eq := fun _ _ h => (Option.some.inj h).symm

structure Cipher (α : Type) where
  context : String
  codec : Codec α
  decryptionError : CryptoError

namespace Base64

def alphabet : List Char :=
  "ABCDEFGHIJKLMNOPQRSTUVWXYZabcdefghijklmnopqrstuvwxyz0123456789+/".toList

def value (c : Char) : Option Nat := alphabet.idxOf? c

/-- The bytes of four characters, of which the padding counts as zero. -/
def first (v w : Nat) : UInt8 := .ofNat (v * 4 + w / 16)

def second (w x : Nat) : UInt8 := .ofNat (w % 16 * 16 + x / 4)

def third (x y : Nat) : UInt8 := .ofNat (x % 4 * 64 + y)

def decode : List Char → Option Bytes
  | [] => some []
  | [a, b, '=', '='] => do
      let v ← value a
      let w ← value b
      return [first v w]
  | [a, b, c, '='] => do
      let v ← value a
      let w ← value b
      let x ← value c
      return [first v w, second w x]
  | a :: b :: c :: d :: rest => do
      let v ← value a
      let w ← value b
      let x ← value c
      let y ← value d
      let more ← decode rest
      return first v w :: second w x :: third x y :: more
  | _ => none

end Base64

/-- The constructor of every cipher. `b64decode` refuses characters outside the
alphabet and what follows the padding, and does not look at spare bits. -/
def cipherKey (encodedKey : Option String) : Except CryptoError Bytes :=
  match encodedKey with
  | none => .error .cryptoConfigurationError
  | some encoded =>
      match Base64.decode encoded.toList with
      | none => .error .cryptoConfigurationError
      | some key => if key.length ≠ keyLength then .error .cryptoConfigurationError else .ok key

namespace Cipher
variable {α : Type} (cipher : Cipher α) (aead : Aead) (key : Bytes)

def associatedData (id : RowId) : Bytes := Codec.text.encode cipher.context ++ id.bytes

/-- `nonce` is what `urandom` draws. -/
def encrypt (nonce : Bytes) (value : α) (id : RowId) : Bytes :=
  [envelopeVersion] ++ nonce ++
    aead.encrypt key nonce (cipher.codec.encode value) (cipher.associatedData id)

def decrypt (envelope : Bytes) (id : RowId) : Except CryptoError α :=
  if envelope.length ≤ 1 + nonceLength ∨ envelope.head? ≠ some envelopeVersion then
    .error cipher.decryptionError
  else
    let nonce := (envelope.drop 1).take nonceLength
    let ciphertext := envelope.drop (1 + nonceLength)
    match aead.decrypt key nonce ciphertext (cipher.associatedData id) with
    | none => .error cipher.decryptionError
    | some plaintext =>
        match cipher.codec.decode plaintext with
        | none => .error cipher.decryptionError
        | some value => .ok value

end Cipher

def passwordCipher : Cipher String where
  context := "coder-manager:database-password:"
  codec := .text
  decryptionError := .passwordDecryptionError

def kubeconfigCipher : Cipher Bytes where
  context := "coder-manager:kubeconfig:"
  codec := .raw
  decryptionError := .kubeconfigDecryptionError

def instancePasswordCipher : Cipher String where
  context := "coder-manager:instance-password:"
  codec := .text
  decryptionError := .instancePasswordDecryptionError

def templateParameterCipher : Cipher String where
  context := "coder-manager:template-parameter:"
  codec := .text
  decryptionError := .templateParameterDecryptionError

inductive CipherName where
  | password
  | kubeconfig
  | instancePassword
  | templateParameter
  deriving DecidableEq, Repr

abbrev CipherName.Value : CipherName → Type
  | .password => String
  | .kubeconfig => Bytes
  | .instancePassword => String
  | .templateParameter => String

def CipherName.cipher : (name : CipherName) → Cipher name.Value
  | .password => passwordCipher
  | .kubeconfig => kubeconfigCipher
  | .instancePassword => instancePasswordCipher
  | .templateParameter => templateParameterCipher

/-- The columns that keep envelopes, and the cipher that reads and writes each. -/
inductive Column where
  | databasePassword
  | kubeconfig
  | password
  | passwordCandidate
  | parameterValue
  deriving DecidableEq, Repr

def Column.cipherName : Column → CipherName
  | .databasePassword => .password
  | .kubeconfig => .kubeconfig
  | .password => .instancePassword
  | .passwordCandidate => .instancePassword
  | .parameterValue => .templateParameter

section Keys

end Keys

section Envelopes

theorem length_bigEndian (n v : Nat) : (bigEndian n v).length = n := by
  induction n generalizing v with
  | zero => rfl
  | succ n ih => rw [bigEndian, List.length_append, ih, List.length_singleton]

theorem bigEndian_injective {n v w : Nat} (hv : v < 256 ^ n) (hw : w < 256 ^ n)
    (h : bigEndian n v = bigEndian n w) : v = w := by
  induction n generalizing v w with
  | zero => omega
  | succ n ih =>
      rw [bigEndian, bigEndian] at h
      obtain ⟨hhigh, hlow⟩ := List.append_inj h (by rw [length_bigEndian, length_bigEndian])
      rw [pow_succ] at hv hw
      have hquotient : v / 256 = w / 256 :=
        ih (Nat.div_lt_of_lt_mul (by omega)) (Nat.div_lt_of_lt_mul (by omega)) hhigh
      have hremainder : v % 256 = w % 256 := by
        have hbyte := congrArg UInt8.toNat (List.cons.inj hlow).1
        simpa using hbyte
      omega

theorem RowId.length_bytes (id : RowId) : id.bytes.length = 16 := length_bigEndian 16 _

theorem RowId.bytes_injective {id id' : RowId} (h : id.bytes = id'.bytes) : id = id' :=
  BitVec.eq_of_toNat_eq (bigEndian_injective (n := 16) id.isLt id'.isLt h)

theorem Codec.encode_injective {α : Type} (codec : Codec α) {v w : α}
    (h : codec.encode v = codec.encode w) : v = w := by
  have hdecode := codec.decode_encode v
  rw [h, codec.decode_encode w] at hdecode
  exact (Option.some.inj hdecode).symm

theorem CipherName.context_injective {name name' : CipherName}
    (h : name.cipher.context = name'.cipher.context) : name = name' := by
  revert h
  cases name <;> cases name' <;> decide

theorem associatedData_injective {name name' : CipherName} {id id' : RowId}
    (h : name.cipher.associatedData id = name'.cipher.associatedData id') :
    name = name' ∧ id = id' := by
  obtain ⟨hcontext, hid⟩ := List.append_inj' h (by rw [RowId.length_bytes, RowId.length_bytes])
  exact ⟨CipherName.context_injective (Codec.text.encode_injective hcontext),
    RowId.bytes_injective hid⟩

def envelopes : Vaults.Format (CipherName × RowId) where
  version := envelopeVersion
  nonceLength := nonceLength
  data owner := owner.1.cipher.associatedData owner.2
  data_injective := by
    intro owner owner' h
    obtain ⟨hname, hid⟩ := associatedData_injective h
    exact Prod.ext hname hid

variable {aead : Aead} {key envelope : Bytes} {name : CipherName} {id : RowId}

theorem decrypt_eq : name.cipher.decrypt aead key envelope id =
    ((envelopes.disclose aead key envelope (name, id)).bind name.cipher.codec.decode).elim
      (.error name.cipher.decryptionError) .ok := by
  unfold Cipher.decrypt
  split
  · rename_i hformat
    have hclosed : envelopes.disclose aead key envelope (name, id) = none := if_pos hformat
    rw [hclosed]
    rfl
  · rename_i hformat
    have hopen : envelopes.disclose aead key envelope (name, id) =
        aead.decrypt key ((envelope.drop 1).take nonceLength)
          (envelope.drop (1 + nonceLength)) (name.cipher.associatedData id) := if_neg hformat
    rw [hopen]
    dsimp only
    cases aead.decrypt key ((envelope.drop 1).take nonceLength)
        (envelope.drop (1 + nonceLength)) (name.cipher.associatedData id) with
    | none => rfl
    | some plaintext =>
        rw [Option.bind_some]
        dsimp only
        cases name.cipher.codec.decode plaintext <;> rfl

theorem decrypt_eq_ok {value : name.Value} :
    name.cipher.decrypt aead key envelope id = .ok value ↔
      envelopes.disclose aead key envelope (name, id) = some (name.cipher.codec.encode value) := by
  rw [decrypt_eq]
  constructor
  · intro h
    cases hopen : envelopes.disclose aead key envelope (name, id) with
    | none => rw [hopen] at h; cases h
    | some plaintext =>
        rw [hopen, Option.bind_some] at h
        cases hdecode : name.cipher.codec.decode plaintext with
        | none => rw [hdecode] at h; cases h
        | some read =>
            rw [hdecode] at h
            cases h
            rw [name.cipher.codec.encode_eq plaintext value hdecode]
  · intro h
    rw [h, Option.bind_some, name.cipher.codec.decode_encode]
    rfl

theorem decrypt_eq_error (closed : envelopes.disclose aead key envelope (name, id) = none) :
    name.cipher.decrypt aead key envelope id = .error name.cipher.decryptionError := by
  rw [decrypt_eq, closed]
  rfl

end Envelopes

end CoderManager
