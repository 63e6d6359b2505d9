import SecureCoap.Log
import SecureCoap.Registry.Credential

/-!
# The registry of trusted credentials

A credential is found under its own encoding and, if it has one, under its key identifier. No two
different credentials are found under one key.
-/

namespace SecureCoap

namespace Registry

structure Table where
  entries : List (Bytes × Credential)
deriving DecidableEq, Repr

namespace Table

def empty : Table := ⟨[]⟩

def lookup? (table : Table) (id : Bytes) : Option Credential := table.entries.lookup id

def size (table : Table) : Nat := table.entries.length

/-- Enters a credential under a key, which may have that credential already but no other. -/
def insert (table : Table) (key : Bytes) (credential : Credential) : Except Error Table :=
  match table.lookup? key with
  | some known => if known = credential then .ok table else .error (.duplicateKey key)
  | none => .ok ⟨table.entries ++ [(key, credential)]⟩

/-- Enters credentials under their key identifiers, telling of those without one. -/
def insertByKid : List Credential → Table → List LogEntry × Except Error Table
  | [], table => ([], .ok table)
  | c :: cs, table =>
    match c.kid with
    | none =>
      let (log, result) := insertByKid cs table
      (.noKeyIdentifier c.bytes :: log, result)
    | some kid =>
      match table.insert kid c with
      | .ok table => insertByKid cs table
      | .error e => ([], .error e)

def insertByValue (cs : List Credential) (table : Table) : Except Error Table :=
  cs.foldlM (fun table c => table.insert c.bytes c) table

/-- The registry of these credentials, and what there is to tell about building it. -/
def ofCredentials (cs : List Credential) : List LogEntry × Except Error Table :=
  match insertByKid cs empty with
  | (log, .error e) => (log, .error e)
  | (log, .ok table) =>
    match insertByValue cs table with
    | .error e => (log, .error e)
    | .ok table => (log ++ [.registryLoaded cs.length table.size], .ok table)

def ofHex (texts : List String) : List LogEntry × Except Error Table :=
  match texts.mapM Credential.ofHex with
  | .ok cs => ofCredentials cs
  | .error e => ([], .error e)

end Table

end Registry

end SecureCoap
