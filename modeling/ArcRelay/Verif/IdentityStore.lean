import ArcRelay.IdentityStore

/-!
# The identity directory survives crashes

What `load_or_create` leaves behind, wherever it is killed, is a directory in which a
private key is never without the certificate it was generated with, because the key is
renamed last and a pair that is complete is never written again. From such a directory
a run that nothing disturbs succeeds, and once an identity has been returned every run
reads the same files.
-/

namespace ArcRelay.Identity

open Async

/-- The directories differ at most in their temporary files. -/
def Alike (directory after : Directory) : Prop :=
  after.files = directory.files ∧ after.generated = directory.generated

theorem alike_setTemporary (directory : Directory) (file : File) (number : UInt64)
    (content : Option Bytes) : Alike directory (directory.setTemporary file number content) :=
  ⟨rfl, rfl⟩

theorem Alike.refl (directory : Directory) : Alike directory directory := ⟨rfl, rfl⟩

theorem Alike.trans {first second third : Directory} (left : Alike first second)
    (right : Alike second third) : Alike first third :=
  ⟨right.1.trans left.1, right.2.trans left.2⟩

/-- A property of directories that does not look at temporary files. -/
def Blind (property : Directory → Prop) : Prop :=
  ∀ directory after, Alike directory after → property directory → property after

@[simp] theorem temporaries_setTemporary (directory : Directory) (file : File) (number : UInt64)
    (content : Option Bytes) :
    (directory.setTemporary file number content).temporaries file number = content := by
  simp [Directory.setTemporary]

section

variable {cryptography : Cryptography} {unix : Bool} {invariant : Directory → Prop}

/-! ## Writing a file -/

/-- The file has been written, or nothing has and an error is returned. -/
def Writes (directory : Directory) (file : File) (bytes : Bytes)
    (result : Except NetworkError Unit) (after : Directory) : Prop :=
  Alike (directory.setFile file bytes) after ∨
    Alike directory after ∧ ∃ error, result = .error error

variable {directory : Directory} {file : File} {bytes : Bytes}

/-- The bytes are renamed into place as a whole. -/
theorem endures_writeAndRename (blind : Blind invariant) {number : UInt64}
    (before : invariant directory) (written : invariant (directory.setFile file bytes))
    (opened : directory.temporaries file number = some []) :
    (writeAndRename unix file number bytes).run.Endures (handle cryptography) invariant
      (Writes directory file bytes) directory := by
  refine ⟨before, fun proposal reply after answered => ?_⟩
  cases proposal with
  | error error =>
    cases answered
    exact ⟨before, Or.inr ⟨.refl _, error, rfl⟩⟩
  | ok _ =>
    cases answered
    have alike := alike_setTemporary directory file number
      ((directory.temporaries file number).map (· ++ bytes))
    have kept := blind _ _ alike before
    refine ⟨kept, fun proposal reply after answered => ?_⟩
    cases answered
    cases proposal with
    | error error => exact ⟨kept, Or.inr ⟨alike, error, rfl⟩⟩
    | ok _ =>
      refine ⟨kept, fun proposal reply after answered => ?_⟩
      cases proposal with
      | error error =>
        cases answered
        exact ⟨kept, Or.inr ⟨alike, error, rfl⟩⟩
      | ok _ =>
        simp only [handle, temporaries_setTemporary, opened, Option.map_some,
          List.nil_append, Option.some.injEq, Prod.mk.injEq] at answered
        obtain ⟨rfl, rfl⟩ := answered
        have renamed : Alike (directory.setFile file bytes)
            (((directory.setTemporary file number (some bytes)).setFile file bytes).setTemporary
              file number none) := ⟨rfl, rfl⟩
        have stays := blind _ _ renamed written
        cases unix with
        | false => exact ⟨stays, Or.inl renamed⟩
        | true =>
          refine ⟨stays, fun proposal reply after answered => ?_⟩
          cases answered
          cases proposal with
          | error error => exact ⟨stays, Or.inl renamed⟩
          | ok _ => exact ⟨stays, Or.inl renamed⟩

/-- `private_write` writes the whole file or nothing of it. -/
theorem endures_privateWrite (blind : Blind invariant) (before : invariant directory)
    (written : invariant (directory.setFile file bytes)) :
    (privateWrite unix file bytes).run.Endures (handle cryptography) invariant
      (Writes directory file bytes) directory := by
  refine ⟨before, fun number reply after answered => ?_⟩
  cases answered
  refine ⟨before, fun proposal reply after answered => ?_⟩
  cases proposal with
  | error error =>
    cases answered
    exact ⟨before, Or.inr ⟨.refl _, error, rfl⟩⟩
  | ok _ =>
    simp only [handle] at answered
    split at answered
    · cases answered
      have alike := alike_setTemporary directory file number (some [])
      have kept := blind _ _ alike before
      have renamed : Alike (directory.setFile file bytes)
          ((directory.setTemporary file number (some [])).setFile file bytes) := ⟨rfl, rfl⟩
      have closure : (writeAndRename unix file number bytes).run.Endures (handle cryptography)
          invariant _ _ := endures_writeAndRename blind kept (blind _ _ renamed written)
            (temporaries_setTemporary directory file number (some []))
      refine endures_result_bind (closure.mono fun result after holds wrote => ?_)
      have overall : Writes directory file bytes result after := by
        rcases wrote with done | ⟨nothing, failed⟩
        · exact Or.inl (renamed.trans done)
        · exact Or.inr ⟨alike.trans nothing, failed⟩
      cases result with
      | ok _ => exact ⟨holds, overall⟩
      | error error =>
        refine ⟨holds, fun proposal reply last answered => ?_⟩
        cases proposal with
        | error other =>
          cases answered
          exact ⟨holds, overall⟩
        | ok _ =>
          cases answered
          have removed := alike_setTemporary after file number none
          refine ⟨blind _ _ removed holds, ?_⟩
          rcases overall with done | ⟨nothing, failed⟩
          · exact Or.inl (done.trans removed)
          · exact Or.inr ⟨nothing.trans removed, failed⟩
    · cases answered
      exact ⟨before, Or.inr ⟨.refl _, _, rfl⟩⟩

/-! ## Reading and creating the parts -/

theorem parseKey_ok {content : Bytes} {key : SigningKey} (parsed : parseKey content = .ok key) :
    key.toList = content := by
  unfold parseKey at parsed
  split at parsed
  · cases parsed
    simp
  · cases parsed

/-- A root key that is there is read. -/
theorem endures_loadOrCreateRoot_present {content : Bytes} (holds : invariant directory)
    (present : directory.files .rootKey = some content) :
    (loadOrCreateRoot unix).run.Endures (handle cryptography) invariant
      (fun result after => after = directory ∧
        ∀ key, result = .ok key → key.toList = content) directory := by
  refine ⟨holds, fun proposal reply after answered => ?_⟩
  simp only [handle, present, Option.isSome_some, Option.some.injEq, Prod.mk.injEq] at answered
  obtain ⟨rfl, rfl⟩ := answered
  refine ⟨holds, fun proposal reply after answered => ?_⟩
  cases proposal with
  | error error =>
    cases answered
    exact ⟨holds, rfl, nofun⟩
  | ok _ =>
    simp only [handle, present, Option.some.injEq, Prod.mk.injEq] at answered
    obtain ⟨rfl, rfl⟩ := answered
    exact ⟨holds, rfl, fun key parsed => parseKey_ok parsed⟩

/-- A root key that is not there is generated and written. -/
theorem endures_loadOrCreateRoot_absent (blind : Blind invariant) (holds : invariant directory)
    (absent : directory.files .rootKey = none)
    (written : ∀ key : SigningKey, invariant (directory.setFile .rootKey key.toList)) :
    (loadOrCreateRoot unix).run.Endures (handle cryptography) invariant
      (fun result after => ∀ key, result = .ok key →
        Alike (directory.setFile .rootKey key.toList) after) directory := by
  refine ⟨holds, fun proposal reply after answered => ?_⟩
  simp only [handle, absent, Option.isSome_none, Option.some.injEq, Prod.mk.injEq] at answered
  obtain ⟨rfl, rfl⟩ := answered
  refine ⟨holds, fun key reply after answered => ?_⟩
  cases answered
  refine endures_bind ((endures_privateWrite blind holds (written key)).mono
    fun result after kept wrote => ?_)
  cases result with
  | error error => exact nofun
  | ok _ =>
    refine ⟨kept, fun other same => ?_⟩
    cases same
    rcases wrote with done | ⟨_, error, failed⟩
    · exact done
    · cases failed

theorem endures_tlsExists (holds : invariant directory) :
    tlsExists.run.Endures (handle cryptography) invariant
      (fun result after => after = directory ∧ result = .ok
        ((directory.files .tlsCert).isSome && (directory.files .tlsKey).isSome)) directory := by
  refine ⟨holds, fun proposal reply after answered => ?_⟩
  simp only [handle, Option.some.injEq, Prod.mk.injEq] at answered
  obtain ⟨rfl, rfl⟩ := answered
  cases found : (directory.files .tlsCert).isSome with
  | false => exact ⟨holds, rfl, by simp⟩
  | true =>
    refine ⟨holds, fun proposal reply after answered => ?_⟩
    simp only [handle, Option.some.injEq, Prod.mk.injEq] at answered
    obtain ⟨rfl, rfl⟩ := answered
    exact ⟨holds, rfl, by simp⟩

/-- A pair that is there is read. -/
theorem endures_loadOrCreateTls_present {certificate key : Bytes} (holds : invariant directory)
    (served : directory.files .tlsCert = some certificate)
    (kept : directory.files .tlsKey = some key) :
    (loadOrCreateTls unix).run.Endures (handle cryptography) invariant
      (fun result after => after = directory ∧
        ∀ pair, result = .ok pair → pair = (certificate, key)) directory := by
  refine endures_bind ((endures_tlsExists holds).mono fun result after _ known => ?_)
  obtain ⟨rfl, rfl⟩ := known
  simp only [served, kept, Option.isSome_some, Bool.and_self, if_true]
  refine ⟨holds, fun proposal reply after answered => ?_⟩
  cases proposal with
  | error error =>
    cases answered
    exact ⟨holds, rfl, nofun⟩
  | ok _ =>
    simp only [handle, served, Option.some.injEq, Prod.mk.injEq] at answered
    obtain ⟨rfl, rfl⟩ := answered
    refine ⟨holds, fun proposal reply after answered => ?_⟩
    cases proposal with
    | error error =>
      cases answered
      exact ⟨holds, rfl, nofun⟩
    | ok _ =>
      simp only [handle, kept, Option.some.injEq, Prod.mk.injEq] at answered
      obtain ⟨rfl, rfl⟩ := answered
      refine ⟨holds, rfl, fun pair same => ?_⟩
      cases same
      rfl

/-- The directory with one more generated pair. -/
def Directory.withPair (directory : Directory) (pair : Bytes × Bytes) : Directory :=
  { directory with generated := directory.generated ++ [pair] }

/-- Without a private key a pair is generated, and the certificate is written before the key. -/
theorem endures_loadOrCreateTls_absent (blind : Blind invariant) (holds : invariant directory)
    (absent : directory.files .tlsKey = none)
    (generated : ∀ pair : Bytes × Bytes, cryptography.generates pair.1 pair.2 = true →
      invariant (directory.withPair pair) ∧
      invariant ((directory.withPair pair).setFile .tlsCert pair.1) ∧
      invariant (((directory.withPair pair).setFile .tlsCert pair.1).setFile .tlsKey pair.2)) :
    (loadOrCreateTls unix).run.Endures (handle cryptography) invariant
      (fun result after => ∀ pair, result = .ok pair →
        Alike (((directory.withPair pair).setFile .tlsCert pair.1).setFile .tlsKey pair.2) after)
      directory := by
  refine endures_bind ((endures_tlsExists holds).mono fun result after _ known => ?_)
  obtain ⟨same, rfl⟩ := known
  rw [same]
  simp only [absent, Option.isSome_none, Bool.and_false, Bool.false_eq_true, if_false]
  refine ⟨holds, fun proposal reply after answered => ?_⟩
  cases proposal with
  | error error =>
    cases answered
    exact ⟨holds, nofun⟩
  | ok pair =>
    simp only [handle] at answered
    split at answered
    · rename_i possible
      cases answered
      obtain ⟨made, first, both⟩ := generated pair possible
      change (do privateWrite unix .tlsCert pair.1
                 privateWrite unix .tlsKey pair.2
                 return pair : Action (Bytes × Bytes)).run.Endures _ _ _ _
      refine endures_bind ((endures_privateWrite blind made first).mono
        fun result after kept wrote => ?_)
      cases result with
      | error error => exact nofun
      | ok _ =>
        rcases wrote with certified | ⟨_, error, failed⟩
        · have second : Alike (((directory.withPair pair).setFile .tlsCert pair.1).setFile
              .tlsKey pair.2) (after.setFile .tlsKey pair.2) := by
            refine ⟨?_, certified.2⟩
            simp only [Directory.setFile, certified.1]
          refine endures_bind ((endures_privateWrite blind kept
            (blind _ _ second both)).mono fun result last kept wrote => ?_)
          cases result with
          | error error => exact nofun
          | ok _ =>
            refine ⟨kept, fun other same => ?_⟩
            cases same
            rcases wrote with done | ⟨_, error, failed⟩
            · exact second.trans done
            · cases failed
        · cases failed
    · cases answered

/-! ## Every directory a run can leave -/

/-- A private key stands beside the certificate it was generated with. -/
structure Consistent (cryptography : Cryptography) (directory : Directory) : Prop where
  root : ∀ content, directory.files .rootKey = some content → content.length = 32
  paired : ∀ key, directory.files .tlsKey = some key → ∃ certificate,
    directory.files .tlsCert = some certificate ∧ (certificate, key) ∈ directory.generated
  generated : ∀ pair ∈ directory.generated, cryptography.generates pair.1 pair.2 = true

theorem consistent_empty : Consistent cryptography .empty := ⟨nofun, nofun, nofun⟩

theorem blind_consistent : Blind (Consistent cryptography) := by
  rintro directory after ⟨files, generated⟩ consistent
  refine ⟨?_, ?_, ?_⟩
  · rw [files]
    exact consistent.root
  · rw [files, generated]
    exact consistent.paired
  · rw [generated]
    exact consistent.generated

theorem Consistent.setRoot (consistent : Consistent cryptography directory) (key : SigningKey) :
    Consistent cryptography (directory.setFile .rootKey key.toList) := by
  refine ⟨fun content same => ?_, consistent.paired, consistent.generated⟩
  cases same
  simp

theorem Consistent.withPair (consistent : Consistent cryptography directory) {pair : Bytes × Bytes}
    (possible : cryptography.generates pair.1 pair.2 = true) :
    Consistent cryptography (directory.withPair pair) := by
  refine ⟨consistent.root, fun key stored => ?_, fun other member => ?_⟩
  · obtain ⟨certificate, beside, together⟩ := consistent.paired key stored
    exact ⟨certificate, beside, List.mem_append_left _ together⟩
  · rcases List.mem_concat_iff.mp member with earlier | rfl
    · exact consistent.generated other earlier
    · exact possible

/-- As long as there is no private key, another certificate may be written. -/
theorem Consistent.setCert (consistent : Consistent cryptography directory)
    (absent : directory.files .tlsKey = none) (certificate : Bytes) :
    Consistent cryptography (directory.setFile .tlsCert certificate) := by
  refine ⟨consistent.root, fun key stored => ?_, consistent.generated⟩
  have unchanged : directory.files .tlsKey = some key := stored
  rw [absent] at unchanged
  cases unchanged

theorem Consistent.setKey (consistent : Consistent cryptography directory) {certificate key : Bytes}
    (beside : directory.files .tlsCert = some certificate)
    (together : (certificate, key) ∈ directory.generated) :
    Consistent cryptography (directory.setFile .tlsKey key) := by
  refine ⟨consistent.root, fun other stored => ⟨certificate, beside, ?_⟩, consistent.generated⟩
  cases stored
  exact together

/-- The directory holds this identity. -/
structure Holds (cryptography : Cryptography) (identity : DeviceIdentity) (directory : Directory) :
    Prop where
  root : directory.files .rootKey = some identity.signingKey.toList
  certificate : directory.files .tlsCert = some identity.certificateDer
  key : directory.files .tlsKey = some identity.serverConfig.privateKey
  digest : identity.certificateSha256 = cryptography.sha256 identity.certificateDer
  /-- The certificate that is served is the one that is announced. -/
  serves : identity.serverConfig.certificate = identity.certificateDer

/-- The parts that `load_or_create` puts together are in the directory. -/
theorem endures_assemble (holds : invariant directory) {key : SigningKey} {tls : Bytes × Bytes}
    {post : Except NetworkError DeviceIdentity → Directory → Prop}
    (failed : ∀ error, post (.error error) directory)
    (assembled : post (.ok ⟨key, tls.1, cryptography.sha256 tls.1, ⟨tls.1, tls.2⟩⟩) directory) :
    (do let config ← Async.ofExcept (serverConfig cryptography tls.1 tls.2)
        return ⟨key, tls.1, cryptography.sha256 tls.1, config⟩ :
      Action DeviceIdentity).run.Endures (handle cryptography) invariant post directory := by
  unfold serverConfig
  cases cryptography.buildConfig tls.1 tls.2 with
  | error reason => exact ⟨holds, failed _⟩
  | ok _ => exact ⟨holds, assembled⟩

/-- Preparing the directory changes nothing in it. -/
theorem endures_prepare {α : Type} {next : Action α}
    {post : Except NetworkError α → Directory → Prop} (holds : invariant directory)
    (failed : ∀ error, post (.error error) directory)
    (continues : next.run.Endures (handle cryptography) invariant post directory) :
    (do Async.ofExcept (← step .createDirAll)
        hardenDirectory unix
        next : Action α).run.Endures (handle cryptography) invariant post directory := by
  refine ⟨holds, fun proposal reply after answered => ?_⟩
  cases answered
  cases proposal with
  | error error => exact ⟨holds, failed error⟩
  | ok _ =>
    cases unix with
    | false => exact continues
    | true =>
      refine ⟨holds, fun proposal reply after answered => ?_⟩
      cases answered
      cases proposal with
      | error error => exact ⟨holds, failed error⟩
      | ok _ => exact continues

/-- In a directory that holds an identity `load_or_create` changes nothing and returns no other. -/
theorem endures_loadOrCreate_holding {identity : DeviceIdentity}
    (holding : Holds cryptography identity directory) :
    (loadOrCreate cryptography unix).run.Endures (handle cryptography)
      (Holds cryptography identity)
      (fun result _ => ∀ other, result = .ok other → other = identity) directory := by
  refine endures_prepare holding nofun ?_
  refine endures_bind ((endures_loadOrCreateRoot_present holding holding.root).mono
    fun result after _ known => ?_)
  obtain ⟨rfl, read⟩ := known
  cases result with
  | error error => exact nofun
  | ok key =>
    obtain rfl : key = identity.signingKey := Vector.toList_inj.mp (read key rfl)
    refine endures_bind ((endures_loadOrCreateTls_present holding holding.certificate
      holding.key).mono fun result after _ known => ?_)
    obtain ⟨rfl, read⟩ := known
    cases result with
    | error error => exact nofun
    | ok pair =>
      obtain rfl := read pair rfl
      refine endures_assemble holding nofun (fun other same => ?_)
      cases same
      obtain ⟨signingKey, certificate, digest, served, privateKey⟩ := identity
      obtain rfl : served = certificate := holding.serves
      obtain rfl : digest = cryptography.sha256 served := holding.digest
      rfl

theorem endures_loadOrCreateRoot (consistent : Consistent cryptography directory) :
    (loadOrCreateRoot unix).run.Endures (handle cryptography) (Consistent cryptography)
      (fun result after => ∀ key, result = .ok key →
        after.files .rootKey = some key.toList) directory := by
  cases stored : directory.files .rootKey with
  | some content =>
    refine (endures_loadOrCreateRoot_present consistent stored).mono
      fun result after _ known key same => ?_
    rw [known.1, stored, known.2 key same]
  | none =>
    refine (endures_loadOrCreateRoot_absent blind_consistent consistent stored
      consistent.setRoot).mono fun result after _ known key same => ?_
    rw [(known key same).1]
    rfl

/-- A consistent directory that keeps its root key. -/
def Rooted (cryptography : Cryptography) (root : Option Bytes) (directory : Directory) : Prop :=
  Consistent cryptography directory ∧ directory.files .rootKey = root

/-- The pair a consistent directory has, or gets. -/
theorem endures_loadOrCreateTls {root : Option Bytes}
    (rooted : Rooted cryptography root directory) :
    (loadOrCreateTls unix).run.Endures (handle cryptography) (Rooted cryptography root)
      (fun result after => ∀ pair, result = .ok pair → after.files .tlsCert = some pair.1 ∧
        after.files .tlsKey = some pair.2) directory := by
  cases stored : directory.files .tlsKey with
  | some key =>
    obtain ⟨certificate, beside, _⟩ := rooted.1.paired key stored
    refine (endures_loadOrCreateTls_present rooted beside stored).mono
      fun result after _ known pair same => ?_
    rw [known.1, known.2 pair same]
    exact ⟨beside, stored⟩
  | none =>
    have blind : Blind (Rooted cryptography root) := fun before after alike known =>
      ⟨blind_consistent _ _ alike known.1, alike.1 ▸ known.2⟩
    refine (endures_loadOrCreateTls_absent blind rooted stored fun pair possible => ?_).mono
      fun result after _ known pair same => ?_
    · have made := rooted.1.withPair possible
      have certified := made.setCert stored pair.1
      have complete := certified.setKey rfl
        (List.mem_append_right directory.generated (List.mem_singleton_self pair))
      exact ⟨⟨made, rooted.2⟩, ⟨certified, rooted.2⟩, ⟨complete, rooted.2⟩⟩
    · rw [(known pair same).1]
      exact ⟨rfl, rfl⟩

/-- Wherever `load_or_create` is killed it leaves a consistent directory, and what it returns is in
the directory. -/
theorem endures_loadOrCreate (consistent : Consistent cryptography directory) :
    (loadOrCreate cryptography unix).run.Endures (handle cryptography) (Consistent cryptography)
      (fun result after => ∀ identity, result = .ok identity →
        Holds cryptography identity after) directory := by
  refine endures_prepare consistent nofun ?_
  refine endures_bind ((endures_loadOrCreateRoot consistent).mono fun result after kept known => ?_)
  cases result with
  | error error => exact nofun
  | ok key =>
    have rooted : Rooted cryptography (some key.toList) after := ⟨kept, known key rfl⟩
    refine Program.Endures.weaken ?_ fun _ (both : Rooted cryptography (some key.toList) _) =>
      both.1
    refine endures_bind ((endures_loadOrCreateTls rooted).mono fun result last both stored => ?_)
    cases result with
    | error error => exact nofun
    | ok pair =>
      refine endures_assemble both nofun (fun identity same => ?_)
      cases same
      obtain ⟨beside, private_⟩ := stored pair rfl
      exact ⟨both.2, beside, private_, rfl, rfl⟩

/-! ## A run that nothing disturbs -/

/-- The environment lets the step succeed. -/
def Call.Granted (cryptography : Cryptography) : (call : Call) → call.Reply → Prop
  | .createDirAll, reply | .setPermissions, reply | .createNew _ _, reply
  | .writeAll _ _ _, reply | .syncAll _ _, reply | .rename _ _, reply | .syncDirectory, reply
  | .removeFile _ _, reply => ∃ value, reply = .ok value
  | .read _, reply => ∃ bytes, reply = .ok bytes
  | .generateSelfSigned, reply =>
    ∃ pair, reply = .ok pair ∧ cryptography.generates pair.1 pair.2 = true
  | .pathExists _, _ | .generateKey, _ | .nextU64, _ => True

/-- Every step succeeds, and no temporary file has a name that is taken. -/
structure Undisturbed (cryptography : Cryptography) (directory : Directory)
    (proposals : Nat → (call : Call) → call.Reply) : Prop where
  granted : ∀ (time : Nat) (call : Call), call.Granted cryptography (proposals time call)
  unused : ∀ (time : Nat) (file : File), directory.temporaries file (proposals time .nextU64) = none

variable {proposals : Nat → (call : Call) → call.Reply}

/-- A temporary file that has been renamed away is as if it had never been. -/
theorem setTemporary_renamed {number : UInt64} {first second : Option Bytes}
    (unused : directory.temporaries file number = none) :
    ((((directory.setTemporary file number first).setTemporary file number second).setFile file
      bytes).setTemporary file number none) = directory.setFile file bytes := by
  have restored : Function.update (directory.temporaries file) number none =
      directory.temporaries file := by
    rw [← unused, Function.update_eq_self]
  simp [Directory.setTemporary, Directory.setFile, restored]

variable {time : Nat}

/-- The bytes are renamed into place. -/
theorem finishes_writeAndRename {number : UInt64}
    (granted : ∀ (time : Nat) (call : Call), call.Granted cryptography (proposals time call))
    (unused : directory.temporaries file number = none) :
    (writeAndRename unix file number bytes).run.Finishes (handle cryptography) proposals
      (fun result after => result = .ok () ∧ after = directory.setFile file bytes)
      time (directory.setTemporary file number (some [])) := by
  obtain ⟨_, writing⟩ := granted time (.writeAll file number bytes)
  refine ⟨.ok (), _, by rw [writing]; rfl, ?_⟩
  obtain ⟨_, syncing⟩ := granted (time + 1) (.syncAll file number)
  refine ⟨.ok (), _, by rw [syncing]; rfl, ?_⟩
  obtain ⟨_, renames⟩ := granted (time + 1 + 1) (.rename file number)
  refine ⟨.ok (), directory.setFile file bytes, ?_, ?_⟩
  · rw [renames]
    simp [handle, setTemporary_renamed unused]
  · cases unix with
    | false => exact ⟨rfl, rfl⟩
    | true =>
      obtain ⟨_, persisting⟩ := granted (time + 1 + 1 + 1) .syncDirectory
      exact ⟨.ok (), _, by rw [persisting]; rfl, rfl, rfl⟩

theorem finishes_privateWrite (undisturbed : Undisturbed cryptography directory proposals) :
    (privateWrite unix file bytes).run.Finishes (handle cryptography) proposals
      (fun result after => result = .ok () ∧ after = directory.setFile file bytes)
      time directory := by
  refine ⟨_, _, rfl, ?_⟩
  have unused := undisturbed.unused time file
  obtain ⟨_, creating⟩ := undisturbed.granted (time + 1) (.createNew file (proposals time .nextU64))
  refine ⟨.ok (), directory.setTemporary file (proposals time .nextU64) (some []), ?_, ?_⟩
  · rw [creating]
    simp [handle, unused]
  · refine finishes_result_bind
      ((finishes_writeAndRename undisturbed.granted unused).mono fun result after known later => ?_)
    obtain ⟨rfl, rfl⟩ := known
    exact ⟨rfl, rfl⟩

theorem Undisturbed.setFile (file : File) (bytes : Bytes)
    (undisturbed : Undisturbed cryptography directory proposals) :
    Undisturbed cryptography (directory.setFile file bytes) proposals :=
  ⟨undisturbed.granted, undisturbed.unused⟩

/-- Looking for a root key and reading or making it succeeds. -/
theorem finishes_loadOrCreateRoot (consistent : Consistent cryptography directory)
    (undisturbed : Undisturbed cryptography directory proposals) :
    (loadOrCreateRoot unix).run.Finishes (handle cryptography) proposals
      (fun result after => ∃ key, result = .ok key ∧ Consistent cryptography after ∧
        Undisturbed cryptography after proposals) time directory := by
  cases stored : directory.files .rootKey with
  | some content =>
    refine ⟨true, directory, by simp [handle, stored], ?_⟩
    obtain ⟨_, reading⟩ := undisturbed.granted (time + 1) (.read .rootKey)
    refine ⟨.ok content, directory, by rw [reading]; simp [handle, stored], ?_⟩
    have length := consistent.root content stored
    exact ⟨⟨content.toArray, by simpa using length⟩, by simp [parseKey, length], consistent,
      undisturbed⟩
  | none =>
    refine ⟨false, directory, by simp [handle, stored], ?_⟩
    refine ⟨_, _, rfl, ?_⟩
    refine finishes_bind ((finishes_privateWrite undisturbed).mono fun result after known => ?_)
    obtain ⟨rfl, rfl⟩ := known
    exact ⟨(), rfl, fun later => ⟨_, rfl, consistent.setRoot _, undisturbed.setFile _ _⟩⟩

theorem finishes_tlsExists :
    tlsExists.run.Finishes (handle cryptography) proposals
      (fun result after => after = directory ∧ result = .ok
        ((directory.files .tlsCert).isSome && (directory.files .tlsKey).isSome))
      time directory := by
  refine ⟨_, _, rfl, ?_⟩
  cases found : (directory.files .tlsCert).isSome with
  | false => exact ⟨rfl, by simp⟩
  | true => exact ⟨_, _, rfl, rfl, by simp⟩

/-- Looking for a pair and reading or making it succeeds, and the pair can be served. -/
theorem finishes_loadOrCreateTls (consistent : Consistent cryptography directory)
    (undisturbed : Undisturbed cryptography directory proposals) :
    (loadOrCreateTls unix).run.Finishes (handle cryptography) proposals
      (fun result _ => ∃ pair, result = .ok pair ∧
        cryptography.generates pair.1 pair.2 = true) time directory := by
  refine finishes_bind (finishes_tlsExists.mono fun result after known => ?_)
  obtain ⟨rfl, rfl⟩ := known
  refine ⟨_, rfl, fun later => ?_⟩
  cases stored : after.files .tlsKey with
  | some key =>
    obtain ⟨certificate, beside, together⟩ := consistent.paired key stored
    simp only [beside, Option.isSome_some, Bool.and_self, if_true]
    obtain ⟨_, certified⟩ := undisturbed.granted later (.read .tlsCert)
    refine ⟨.ok certificate, after, by rw [certified]; simp [handle, beside], ?_⟩
    obtain ⟨_, reading⟩ := undisturbed.granted (later + 1) (.read .tlsKey)
    refine ⟨.ok key, after, by rw [reading]; simp [handle, stored], ?_⟩
    exact ⟨(certificate, key), rfl, consistent.generated _ together⟩
  | none =>
    simp only [Option.isSome_none, Bool.and_false, Bool.false_eq_true, if_false]
    obtain ⟨pair, generating, possible⟩ := undisturbed.granted later .generateSelfSigned
    refine ⟨.ok pair, after.withPair pair, ?_, ?_⟩
    · rw [generating]
      simp [handle, possible, Directory.withPair]
    · change (do privateWrite unix .tlsCert pair.1
                 privateWrite unix .tlsKey pair.2
                 return pair : Action (Bytes × Bytes)).run.Finishes _ _ _ _ _
      have ready : Undisturbed cryptography (after.withPair pair) proposals :=
        ⟨undisturbed.granted, undisturbed.unused⟩
      refine finishes_bind ((finishes_privateWrite ready).mono fun result first known => ?_)
      obtain ⟨rfl, rfl⟩ := known
      refine ⟨(), rfl, fun later => ?_⟩
      refine finishes_bind ((finishes_privateWrite (ready.setFile _ _)).mono
        fun result last known => ?_)
      obtain ⟨rfl, rfl⟩ := known
      exact ⟨(), rfl, fun later => ⟨pair, rfl, possible⟩⟩

/-- On a consistent directory a run that nothing disturbs succeeds. -/
theorem finishes_loadOrCreate (consistent : Consistent cryptography directory)
    (undisturbed : Undisturbed cryptography directory proposals) :
    (loadOrCreate cryptography unix).run.Finishes (handle cryptography) proposals
      (fun result _ => ∃ identity, result = .ok identity) time directory := by
  obtain ⟨_, creating⟩ := undisturbed.granted time .createDirAll
  refine ⟨.ok (), directory, by rw [creating]; rfl, ?_⟩
  have rest : ∀ later, (do
      let signingKey ← loadOrCreateRoot unix
      let tls ← loadOrCreateTls unix
      let config ← Async.ofExcept (serverConfig cryptography tls.1 tls.2)
      return ⟨signingKey, tls.1, cryptography.sha256 tls.1, config⟩ :
        Action DeviceIdentity).run.Finishes (handle cryptography) proposals
      (fun result _ => ∃ identity, result = .ok identity) later directory := by
    intro later
    refine finishes_bind ((finishes_loadOrCreateRoot consistent undisturbed).mono
      fun result after known => ?_)
    obtain ⟨key, rfl, kept, ready⟩ := known
    refine ⟨key, rfl, fun later => ?_⟩
    refine finishes_bind ((finishes_loadOrCreateTls kept ready).mono fun result after known => ?_)
    obtain ⟨pair, rfl, possible⟩ := known
    refine ⟨pair, rfl, fun later => ?_⟩
    simp only [serverConfig, cryptography.serves _ _ possible]
    exact ⟨_, rfl⟩
  cases unix with
  | false => exact rest (time + 1)
  | true =>
    obtain ⟨_, hardening⟩ := undisturbed.granted (time + 1) .setPermissions
    exact ⟨.ok (), directory, by rw [hardening]; rfl, rest (time + 1 + 1)⟩

/-! ## One run after another -/

/-- What a run that may be killed leaves and returns. -/
theorem launch_of_endures {post : Except NetworkError DeviceIdentity → Directory → Prop}
    (process : Process)
    (endures : (loadOrCreate cryptography unix).run.Endures (handle cryptography) invariant post
      directory) :
    invariant (launch cryptography unix directory process).2 ∧
      ∀ result, (launch cryptography unix directory process).1 = some result →
        post result (launch cryptography unix directory process).2 := by
  obtain ⟨kept, returned⟩ :=
    @Program.Endures.advance _ _ _ _ _ process.proposals _ _ _ _ endures process.steps 0
  unfold launch
  split
  · rename_i result after reached
    rw [reached] at kept returned
    refine ⟨kept, fun other same => ?_⟩
    cases same
    exact returned result rfl
  · rename_i call next after reached
    rw [reached] at kept
    exact ⟨kept, nofun⟩

theorem consistent_afterAll (processes : List Process) :
    Consistent cryptography (afterAll cryptography unix processes) := by
  refine (Run.invariant_always consistent_empty (fun directory process consistent => ?_)
    processes).last
  exact (launch_of_endures process (endures_loadOrCreate consistent)).1

theorem holds_exec {identity : DeviceIdentity} (holding : Holds cryptography identity directory)
    (processes : List Process) :
    Holds cryptography identity (Run.exec
      (fun directory process => (launch cryptography unix directory process).2) directory
      processes) := by
  refine (Run.invariant_always holding (fun directory process holding => ?_) processes).last
  exact (launch_of_endures process (endures_loadOrCreate_holding holding)).1

/-- After any runs, killed and failed ones among them, a run that nothing disturbs succeeds with a
certificate and a key that were generated together, and once an identity has been returned every
run that succeeds returns the same. -/
theorem identity_crash_consistent (cryptography : Cryptography) (unix : Bool)
    (processes : List Process) :
    (∀ proposals, Undisturbed cryptography (afterAll cryptography unix processes) proposals →
      ∃ enough, ∀ steps, enough ≤ steps → ∃ identity after,
        launch cryptography unix (afterAll cryptography unix processes) ⟨proposals, steps⟩ =
          (some (.ok identity), after) ∧
        identity.serverConfig.certificate = identity.certificateDer ∧
        (identity.serverConfig.certificate, identity.serverConfig.privateKey) ∈ after.generated) ∧
    ∀ before process between, processes = before ++ process :: between → ∀ identity,
      (launch cryptography unix (afterAll cryptography unix before) process).1 =
        some (.ok identity) →
      ∀ later other, (launch cryptography unix (afterAll cryptography unix processes) later).1 =
        some (.ok other) →
      other.deviceId cryptography = identity.deviceId cryptography ∧
        other.signingKey = identity.signingKey ∧
        other.certificateSha256 = identity.certificateSha256 := by
  constructor
  · intro proposals undisturbed
    have consistent : Consistent cryptography (afterAll cryptography unix processes) :=
      consistent_afterAll processes
    have finishes : (loadOrCreate cryptography unix).run.Finishes _ _ _ 0 _ :=
      finishes_loadOrCreate consistent undisturbed
    obtain ⟨enough, finished⟩ := finishes.advance
    refine ⟨enough, fun steps many => ?_⟩
    obtain ⟨_, after, reached, identity, rfl⟩ := finished steps many
    have launched : launch cryptography unix (afterAll cryptography unix processes)
        ⟨proposals, steps⟩ = (some (.ok identity), after) := by
      unfold launch
      rw [reached]
    obtain ⟨kept, returned⟩ :=
      launch_of_endures ⟨proposals, steps⟩ (@endures_loadOrCreate _ unix _ consistent)
    rw [launched] at kept returned
    have holding := returned (.ok identity) rfl identity rfl
    obtain ⟨certificate, beside, together⟩ := kept.paired _ holding.key
    rw [holding.certificate] at beside
    cases beside
    exact ⟨identity, after, launched, holding.serves, holding.serves ▸ together⟩
  · rintro before process between rfl identity returned later other succeeded
    have holding : Holds cryptography identity
        (launch cryptography unix (afterAll cryptography unix before) process).2 :=
      (launch_of_endures process (endures_loadOrCreate (consistent_afterAll before))).2 _ returned
        identity rfl
    have still : Holds cryptography identity
        (afterAll cryptography unix (before ++ process :: between)) := by
      unfold afterAll
      rw [Run.exec_append]
      exact holds_exec holding between
    obtain rfl := (launch_of_endures later (endures_loadOrCreate_holding still)).2 _ succeeded
      other rfl
    exact ⟨rfl, rfl, rfl⟩

/-- Digests and ids are constant, and one pair can be generated. -/
def Cryptography.sample : Cryptography where
  sha256 := fun _ => .replicate 32 0
  deviceId := fun _ => ⟨"alice"⟩
  generates := fun certificate key => certificate = [1] ∧ key = [2]
  buildConfig := fun certificate key =>
    if certificate = [1] ∧ key = [2] then .ok () else .error "mismatch"
  serves := fun certificate key together => by simp_all

/-- An environment in which every step succeeds. -/
def smooth : Nat → (call : Call) → call.Reply
  | _, .createDirAll | _, .setPermissions | _, .createNew _ _ | _, .writeAll _ _ _
  | _, .syncAll _ _ | _, .rename _ _ | _, .syncDirectory | _, .removeFile _ _ => .ok ()
  | _, .pathExists _ => true
  | _, .read _ => .ok []
  | _, .generateKey => .replicate 32 0
  | _, .generateSelfSigned => .ok ([1], [2])
  | _, .nextU64 => 7

theorem exists_identity {result : Option (Except NetworkError DeviceIdentity)}
    (succeeds : result.any Except.isOk = true) : ∃ identity, result = some (.ok identity) := by
  cases result with
  | none => cases succeeds
  | some outcome =>
    cases outcome with
    | error error => cases succeeds
    | ok identity => exact ⟨identity, rfl⟩

/-- A run killed right after the certificate was renamed leaves no private key, and the next run
succeeds. The one after it returns the same identity. -/
theorem identity_crash_consistent_killed :
    (afterAll .sample true [⟨smooth, 17⟩]).files .tlsCert = some [1] ∧
    (afterAll .sample true [⟨smooth, 17⟩]).files .tlsKey = none ∧
    (∃ enough, ∀ steps, enough ≤ steps → ∃ identity after,
      launch .sample true (afterAll .sample true [⟨smooth, 17⟩]) ⟨smooth, steps⟩ =
        (some (.ok identity), after) ∧
      identity.serverConfig.certificate = identity.certificateDer ∧
      (identity.serverConfig.certificate, identity.serverConfig.privateKey) ∈ after.generated) ∧
    ∃ identity other,
      (launch .sample true (afterAll .sample true [⟨smooth, 17⟩]) ⟨smooth, 60⟩).1 =
        some (.ok identity) ∧
      (launch .sample true (afterAll .sample true [⟨smooth, 17⟩, ⟨smooth, 60⟩])
        ⟨smooth, 60⟩).1 = some (.ok other) ∧
      other.deviceId .sample = identity.deviceId .sample ∧
        other.signingKey = identity.signingKey ∧
        other.certificateSha256 = identity.certificateSha256 := by
  refine ⟨by decide +kernel, by decide +kernel, ?_, ?_⟩
  · refine (identity_crash_consistent .sample true [⟨smooth, 17⟩]).1 smooth ⟨?_, ?_⟩
    · intro time call
      cases call <;> simp [Call.Granted, smooth, Cryptography.sample]
    · intro time file
      change (afterAll .sample true [⟨smooth, 17⟩]).temporaries file 7 = none
      cases file <;> decide +kernel
  · obtain ⟨identity, first⟩ := exists_identity (show (launch .sample true
      (afterAll .sample true [⟨smooth, 17⟩]) ⟨smooth, 60⟩).1.any Except.isOk = true by
        decide +kernel)
    obtain ⟨other, second⟩ := exists_identity (show (launch .sample true
      (afterAll .sample true [⟨smooth, 17⟩, ⟨smooth, 60⟩]) ⟨smooth, 60⟩).1.any Except.isOk = true
        by decide +kernel)
    exact ⟨identity, other, first, second, (identity_crash_consistent .sample true
      [⟨smooth, 17⟩, ⟨smooth, 60⟩]).2 [⟨smooth, 17⟩] ⟨smooth, 60⟩ [] rfl identity first
        ⟨smooth, 60⟩ other second⟩

end

end ArcRelay.Identity
