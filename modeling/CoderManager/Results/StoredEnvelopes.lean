import CoderManager.Crypto
import CoderManager.Models

/-!
# Stored envelopes

All columns of all rows share one key. An attacker who can write to the database may
move, repeat, cut or replace envelopes at will, and still nothing is decrypted that was
not encrypted for that very row and that kind of column.
-/
namespace CoderManager
open Vaults (Bytes Aead)

/-- One step of the columns' history: a value is encrypted into a column, anybody with
access to the database writes to it, or the value is decrypted from it. -/
inductive CredentialEvent where
  | encrypts (key : Bytes) (column : Column) (id : RowId) (nonce : envelopes.Nonce)
      (value : column.cipherName.Value)
  | overwrites (column : Column) (id : RowId) (bytes : Option Bytes)
  | decrypts (key : Bytes) (column : Column) (id : RowId)

namespace CredentialEvent

/-- The event of the vault: the column's cipher and the row own the value. -/
def event : CredentialEvent → Vaults.Event envelopes (Column × RowId)
  | encrypts key column id nonce value =>
      .seals key (column, id) (column.cipherName, id) nonce
        (column.cipherName.cipher.codec.encode value)
  | overwrites column id bytes => .overwrites (column, id) bytes
  | decrypts key column id => .unseals key (column, id) (column.cipherName, id)

def writes : CredentialEvent → Option (Column × RowId)
  | encrypts _ column id _ _ | overwrites column id _ => some (column, id)
  | decrypts _ _ _ => none

end CredentialEvent

def kept (aead : Aead) (t : List CredentialEvent) (column : Column) (id : RowId) : Option Bytes :=
  Vaults.contents aead (t.map CredentialEvent.event) (column, id)

/-- An envelope made for a row and a kind of column. -/
inductive Encrypted (aead : Aead) (t : List CredentialEvent) (key : Bytes) (id : RowId) :
    (name : CipherName) → name.Value → Bytes → Prop where
  | intro (column : Column) (nonce : envelopes.Nonce) (value : column.cipherName.Value)
      (made : .encrypts key column id nonce value ∈ t) :
      Encrypted aead t key id column.cipherName value
        (column.cipherName.cipher.encrypt aead key nonce value id)

/-- What decrypting the envelope that a column keeps comes to. -/
structure Decrypted (aead : Aead) (before : List CredentialEvent) (key : Bytes) (column : Column)
    (id : RowId) (envelope : Bytes) : Prop where
  own : ∀ value, column.cipherName.cipher.decrypt aead key envelope id = .ok value →
    Encrypted aead before key id column.cipherName value envelope
  moved : ∀ key' id' name value, Encrypted aead before key' id' name value envelope →
    ¬(key = key' ∧ column.cipherName = name ∧ id = id') →
    column.cipherName.cipher.decrypt aead key envelope id =
      .error column.cipherName.cipher.decryptionError
  latest : ∀ earlier nonce value rest,
    before = earlier ++ .encrypts key column id nonce value :: rest →
    (∀ e ∈ rest, e.writes ≠ some (column, id)) →
    column.cipherName.cipher.decrypt aead key envelope id = .ok value
  /-- The rows of the model keep such an envelope as what it decrypts to. -/
  sealed : ∀ id' value text, Encrypted aead before key id' column.cipherName value envelope →
    column.cipherName.cipher.codec.encode value = Codec.text.encode text →
    (column.cipherName.cipher.decrypt aead key envelope id).toOption.map
        column.cipherName.cipher.codec.encode =
      ((Sealed.encrypt text id'.toNat).decrypt id.toNat).map Codec.text.encode

/-- Every decryption of a history meets its own envelopes only. -/
def EnvelopesBound (aead : Aead) (t : List CredentialEvent) : Prop :=
  ∀ before after key column id envelope, t = before ++ .decrypts key column id :: after →
    kept aead before column id = some envelope →
    Decrypted aead before key column id envelope

section Decryptions
variable {aead : Aead} {t before after : List CredentialEvent} {key envelope : Bytes}
variable {column : Column} {id : RowId}

theorem CredentialEvent.writes_event (e : CredentialEvent) : e.event.writes = e.writes := by
  cases e <;> rfl

theorem map_split (split : t = before ++ .decrypts key column id :: after) :
    t.map CredentialEvent.event = before.map CredentialEvent.event ++
      .unseals key (column, id) (column.cipherName, id) :: after.map CredentialEvent.event := by
  rw [split, List.map_append, List.map_cons]
  rfl

theorem Encrypted.of_sealed {place : Column × RowId} {nonce : envelopes.Nonce} {name : CipherName}
    {value : name.Value}
    (made : .seals key place (name, id) nonce (name.cipher.codec.encode value) ∈
      before.map CredentialEvent.event) :
    Encrypted aead before key id name value (name.cipher.encrypt aead key nonce value id) := by
  obtain ⟨e, he, hevent⟩ := List.mem_map.mp made
  cases e with
  | encrypts key' column' id' nonce' value' =>
      simp only [CredentialEvent.event, Vaults.Event.seals.injEq, Prod.mk.injEq] at hevent
      obtain ⟨rfl, -, ⟨rfl, rfl⟩, rfl, hvalue⟩ := hevent
      cases column'.cipherName.cipher.codec.encode_injective hvalue
      exact .intro column' nonce' value' he
  | overwrites => cases hevent
  | decrypts => cases hevent

theorem Encrypted.sealed {name : CipherName} {value : name.Value}
    (h : Encrypted aead before key id name value envelope) :
    ∃ place nonce, .seals key place (name, id) nonce (name.cipher.codec.encode value) ∈
        before.map CredentialEvent.event ∧
      envelope = envelopes.enclose aead key nonce (name.cipher.codec.encode value) (name, id) := by
  cases h with
  | intro column nonce value made =>
      exact ⟨(column, id), nonce, List.mem_map.mpr ⟨_, made, rfl⟩, rfl⟩

variable (unforged : Vaults.Unforged aead (t.map CredentialEvent.event))
  (fresh : Vaults.Fresh (t.map CredentialEvent.event))
  (split : t = before ++ .decrypts key column id :: after)
  (held : kept aead before column id = some envelope)
include unforged fresh split held

theorem disclose_encrypted {key' : Bytes} {id' : RowId} {name : CipherName} {value : name.Value}
    (made : Encrypted aead before key' id' name value envelope) :
    envelopes.disclose aead key envelope (column.cipherName, id) =
      if key = key' ∧ (column.cipherName, id) = (name, id') then
        some (name.cipher.codec.encode value) else none := by
  obtain ⟨place, nonce, hmem, rfl⟩ := made.sealed
  exact unforged.disclose_moved fresh (map_split split) hmem held

theorem decrypted : Decrypted aead before key column id envelope where
  own := by
    intro value h
    obtain ⟨place, nonce, hmem, rfl⟩ := unforged.sealed (map_split split) held (decrypt_eq_ok.mp h)
    exact .of_sealed hmem
  moved := by
    intro key' id' name value made hother
    apply decrypt_eq_error
    rw [disclose_encrypted unforged fresh split held made, if_neg]
    rintro ⟨hkey, howner⟩
    exact hother ⟨hkey, congrArg Prod.fst howner, congrArg Prod.snd howner⟩
  latest := by
    intro earlier nonce value rest hbefore hquiet
    have hkept : kept aead before column id =
        some (column.cipherName.cipher.encrypt aead key nonce value id) := by
      rw [kept, hbefore, List.map_append, List.map_cons]
      apply Vaults.contents_latest
      intro e he
      obtain ⟨e', he', rfl⟩ := List.mem_map.mp he
      rw [CredentialEvent.writes_event]
      exact hquiet e' he'
    rw [Option.some.inj (held.symm.trans hkept)]
    exact decrypt_eq_ok.mpr (Vaults.Format.disclose_eq_some.mpr ⟨nonce, rfl⟩)
  sealed := by
    intro id' value text made htext
    have hopen := disclose_encrypted unforged fresh split held made
    by_cases hid : id = id'
    · subst hid
      rw [if_pos ⟨rfl, rfl⟩] at hopen
      have hsealed : (Sealed.encrypt text id.toNat).decrypt id.toNat = some text := if_pos rfl
      rw [decrypt_eq_ok.mpr hopen, hsealed]
      exact congrArg some htext
    · rw [if_neg (fun h => hid (congrArg Prod.snd h.2))] at hopen
      rw [decrypt_eq_error hopen, Sealed.decrypt, if_neg]
      · rfl
      · intro h
        exact hid (BitVec.eq_of_toNat_eq h).symm

end Decryptions

/-- As long as no ciphertext is forged and no nonce drawn twice, whatever is written to
the columns: what decrypts was encrypted for that row and cipher, and an envelope from
anywhere else is refused. -/
theorem envelopes_are_bound (aead : Aead) (t : List CredentialEvent)
    (unforged : Vaults.Unforged aead (t.map CredentialEvent.event))
    (fresh : Vaults.Fresh (t.map CredentialEvent.event)) : EnvelopesBound aead t := by
  intro before after key column id envelope split held
  exact decrypted unforged fresh split held

/-- AES-256-GCM as far as one value goes; elsewhere sixteen zeros stand for the tag. -/
structure Sample where
  key : Bytes
  nonce : Bytes
  plaintext : Bytes
  data : Bytes
  ciphertext : Bytes

namespace Sample

def zeroTag : Bytes := List.replicate 16 0

def encrypt (s : Sample) (key nonce plaintext data : Bytes) : Bytes :=
  if key = s.key ∧ nonce = s.nonce ∧ plaintext = s.plaintext ∧ data = s.data then s.ciphertext
  else plaintext ++ zeroTag

def decrypt (s : Sample) (key nonce ciphertext data : Bytes) : Option Bytes :=
  if key = s.key ∧ nonce = s.nonce ∧ data = s.data ∧ ciphertext = s.ciphertext then
    some s.plaintext
  else
    let plaintext := ciphertext.take (ciphertext.length - 16)
    if s.encrypt key nonce plaintext data = ciphertext then some plaintext else none

def aead (s : Sample) (long : s.plaintext.length < s.ciphertext.length)
    (tagged : ∀ plaintext, s.ciphertext ≠ plaintext ++ zeroTag) : Aead where
  encrypt := s.encrypt
  decrypt := s.decrypt
  length_encrypt := by
    intro key nonce plaintext data
    unfold encrypt
    split
    · rename_i h
      rw [h.2.2.1]
      exact long
    · simp [zeroTag]
  decrypt_eq_some := by
    intro key nonce ciphertext plaintext data
    unfold decrypt
    split
    · rename_i h
      obtain ⟨rfl, rfl, rfl, rfl⟩ := h
      rw [Option.some.injEq]
      constructor
      · rintro rfl
        exact (if_pos ⟨rfl, rfl, rfl, rfl⟩).symm
      · intro h
        unfold encrypt at h
        split at h
        · rename_i hplain
          exact hplain.2.2.1.symm
        · exact absurd h (tagged plaintext)
    · rename_i hother
      dsimp only
      constructor
      · intro h
        split at h
        · rename_i hround
          rw [← Option.some.inj h]
          exact hround.symm
        · cases h
      · rintro rfl
        have hplain : s.encrypt key nonce plaintext data = plaintext ++ zeroTag := by
          unfold encrypt
          rw [if_neg]
          rintro ⟨rfl, rfl, rfl, rfl⟩
          exact hother ⟨rfl, rfl, rfl, if_pos ⟨rfl, rfl, rfl, rfl⟩⟩
        have htake : (plaintext ++ zeroTag).take ((plaintext ++ zeroTag).length - 16) =
            plaintext := by
          simp [zeroTag]
        rw [hplain, htake, if_pos hplain]

end Sample

/-- A database password as the tests' key encrypts it for row 7. -/
def databasePasswordSample : Sample where
  key := Codec.text.encode "00112233445566778889aabbccddeeff"
  nonce := [0, 1, 2, 3, 4, 5, 6, 7, 8, 9, 10, 11]
  plaintext := Codec.text.encode "pw"
  data := passwordCipher.associatedData 7
  ciphertext := [85, 210, 125, 203, 85, 147, 9, 232, 80, 45, 2, 201, 113, 157, 223, 148, 205, 156]

example : cipherKey (some "MDAxMTIyMzM0NDU1NjY3Nzg4ODlhYWJiY2NkZGVlZmY=") =
    .ok databasePasswordSample.key := by decide +kernel

theorem databasePasswordSample_tagged (plaintext : Bytes) :
    databasePasswordSample.ciphertext ≠ plaintext ++ Sample.zeroTag := by
  intro h
  have hlast := congrArg List.getLast? h
  simp [databasePasswordSample, Sample.zeroTag] at hlast

def sampleAead : Aead :=
  databasePasswordSample.aead (by decide +kernel) databasePasswordSample_tagged

def copiedEnvelope : List CredentialEvent :=
  [.encrypts databasePasswordSample.key .databasePassword 7
      ⟨databasePasswordSample.nonce, rfl⟩ "pw",
    .overwrites .databasePassword 8
      (some (passwordCipher.encrypt sampleAead databasePasswordSample.key
        databasePasswordSample.nonce "pw" 7)),
    .decrypts databasePasswordSample.key .databasePassword 7,
    .decrypts databasePasswordSample.key .databasePassword 8]

theorem copiedEnvelope_enclosed : passwordCipher.encrypt sampleAead databasePasswordSample.key
    databasePasswordSample.nonce "pw" 7 =
      envelopeVersion :: (databasePasswordSample.nonce ++ databasePasswordSample.ciphertext) := by
  decide +kernel

theorem copiedEnvelope_parts {nonce : envelopes.Nonce} {ciphertext : Bytes}
    (h : some (passwordCipher.encrypt sampleAead databasePasswordSample.key
        databasePasswordSample.nonce "pw" 7) =
      some (envelopes.version :: (nonce.val ++ ciphertext))) :
    nonce.val = databasePasswordSample.nonce ∧
      ciphertext = databasePasswordSample.ciphertext := by
  rw [copiedEnvelope_enclosed] at h
  have htail := (List.cons.inj (Option.some.inj h)).2
  obtain ⟨hnonce, hciphertext⟩ := List.append_inj htail nonce.property.symm
  exact ⟨hnonce.symm, hciphertext.symm⟩

theorem copiedEnvelope_unforged :
    Vaults.Unforged sampleAead (copiedEnvelope.map CredentialEvent.event) := by
  intro before after key place owner split nonce ciphertext plaintext held opened
  rcases before with _ | ⟨e₁, _ | ⟨e₂, _ | ⟨e₃, _ | ⟨e₄, rest⟩⟩⟩⟩
  · cases split
  · cases split
  · simp only [copiedEnvelope, List.map_cons, List.map_nil, CredentialEvent.event,
      List.cons_append, List.nil_append, List.cons.injEq, Vaults.Event.unseals.injEq] at split
    obtain ⟨rfl, rfl, ⟨rfl, rfl, rfl⟩, -⟩ := split
    obtain ⟨hnonce, rfl⟩ := copiedEnvelope_parts held
    have hplain : sampleAead.decrypt databasePasswordSample.key databasePasswordSample.nonce
        databasePasswordSample.ciphertext (passwordCipher.associatedData 7) =
          some databasePasswordSample.plaintext := by decide +kernel
    rw [hnonce] at opened
    cases hplain.symm.trans opened
    rw [hnonce]
    exact List.mem_cons_self
  · simp only [copiedEnvelope, List.map_cons, List.map_nil, CredentialEvent.event,
      List.cons_append, List.nil_append, List.cons.injEq, Vaults.Event.unseals.injEq] at split
    obtain ⟨rfl, rfl, rfl, ⟨rfl, rfl, rfl⟩, -⟩ := split
    obtain ⟨hnonce, rfl⟩ := copiedEnvelope_parts held
    have hrefused : sampleAead.decrypt databasePasswordSample.key databasePasswordSample.nonce
        databasePasswordSample.ciphertext (passwordCipher.associatedData 8) = none := by
      decide +kernel
    rw [hnonce] at opened
    cases hrefused.symm.trans opened
  · have hlength := congrArg List.length split
    simp only [copiedEnvelope, List.length_map, List.length_append, List.length_cons,
      List.length_nil] at hlength
    omega

theorem copied_envelope_is_refused : EnvelopesBound sampleAead copiedEnvelope :=
  envelopes_are_bound sampleAead copiedEnvelope copiedEnvelope_unforged
    (List.nodup_singleton databasePasswordSample.nonce)

end CoderManager
