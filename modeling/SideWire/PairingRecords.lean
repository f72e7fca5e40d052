import Mathlib.Logic.Function.Basic
import SideWire.PairingStore

/-!
The records that the device keeps of the hosts it is paired with: what `store_paired_host`
writes and `paired_host_secret` reads back. The writes succeed.
-/

namespace SideWire.PairingRecords

open SideWire.PairingStore

def safeName (hostName : Text) : Text := hostName.filter fun ch => !(ch == '\r' || ch == '\n')

/-- The text of a record. -/
def record (hostName : Text) (secret : Key) : Text :=
  "name=".toList ++ safeName hostName ++ '\n' ::
    ("secret=".toList ++ keyToHex secret ++ ['\n'])

/-- One call of `store_paired_host`. -/
structure Store where
  hostId : DeviceId
  hostName : Text
  secret : Key
  deriving DecidableEq

def storePairedHost (pairsDir : PairsDir) (store : Store) : PairsDir :=
  Function.update pairsDir (pairedPath store.hostId)
    (some (.ok (record store.hostName store.secret)))

theorem pairedPath_inj {a b : DeviceId} (h : pairedPath a = pairedPath b) : a = b :=
  DeviceId.toHex_inj (List.append_cancel_right h)

section Lines

theorem linesFrom_append {text : Text} (h : '\n' ∉ text) (line rest : Text) :
    linesFrom line (text ++ '\n' :: rest) =
      stripCarriageReturn (line ++ text) :: lines rest := by
  induction text generalizing line with
  | nil => simp [linesFrom, lines]
  | cons c text ih =>
      rw [List.mem_cons, not_or] at h
      obtain ⟨hc, htext⟩ := h
      rw [List.cons_append, linesFrom, if_neg (Ne.symm hc), ih htext, List.append_assoc]
      rfl

theorem lines_append {text : Text} (hfeed : '\n' ∉ text) (hreturn : '\r' ∉ text) (rest : Text) :
    lines (text ++ '\n' :: rest) = text :: lines rest := by
  have hlast : text.getLast? ≠ some '\r' := fun h => hreturn (List.mem_of_getLast? h)
  rw [lines, linesFrom_append hfeed, List.nil_append, stripCarriageReturn, if_neg hlast]

theorem not_mem_safeName (hostName : Text) :
    '\n' ∉ safeName hostName ∧ '\r' ∉ safeName hostName := by
  simp [safeName]

theorem not_mem_keyToHex (secret : Key) : '\n' ∉ keyToHex secret ∧ '\r' ∉ keyToHex secret := by
  have hhex := hexText_hexdigits secret.toList
  refine ⟨?_, ?_⟩ <;> intro hmem <;> exact absurd (hhex _ hmem).1 (by decide)

/-- Whatever the name, a record has its two lines and no others. -/
theorem lines_record (hostName : Text) (secret : Key) :
    lines (record hostName secret) =
      ["name=".toList ++ safeName hostName, "secret=".toList ++ keyToHex secret] := by
  obtain ⟨hnameFeed, hnameReturn⟩ := not_mem_safeName hostName
  obtain ⟨hkeyFeed, hkeyReturn⟩ := not_mem_keyToHex secret
  rw [record, lines_append, lines_append]
  · rfl
  all_goals simp_all

end Lines

theorem findSome_record (hostName : Text) (secret : Key) :
    (lines (record hostName secret)).findSome? (stripStart "secret=".toList) =
      some (keyToHex secret) := by
  have hname : stripStart "secret=".toList ("name=".toList ++ safeName hostName) = none := rfl
  rw [lines_record, List.findSome?_cons, hname, List.findSome?_cons,
    stripStart_eq_some_iff.mpr rfl]

theorem pairedHostSecret_update (pairsDir : PairsDir) (store : Store) (hostId : DeviceId) :
    pairedHostSecret (some (storePairedHost pairsDir store)) hostId =
      if store.hostId = hostId then .ok (some store.secret)
      else pairedHostSecret (some pairsDir) hostId := by
  by_cases hsame : store.hostId = hostId
  · subst hsame
    rw [if_pos rfl]
    simp only [pairedHostSecret, storePairedHost, Function.update_self, findSome_record,
      keyFromHex_keyToHex]
    rfl
  · have hpath : pairedPath hostId ≠ pairedPath store.hostId :=
      fun h => hsame (pairedPath_inj h).symm
    rw [if_neg hsame]
    simp only [pairedHostSecret, storePairedHost, Function.update_of_ne hpath]

/-- Calls for other hosts change nothing. -/
theorem pairedHostSecret_foldl (pairsDir : PairsDir) {stores : List Store} {hostId : DeviceId}
    (h : ∀ store ∈ stores, store.hostId ≠ hostId) :
    pairedHostSecret (some (stores.foldl storePairedHost pairsDir)) hostId =
      pairedHostSecret (some pairsDir) hostId := by
  induction stores generalizing pairsDir with
  | nil => rfl
  | cons store stores ih =>
      obtain ⟨hstore, hstores⟩ := List.forall_mem_cons.mp h
      rw [List.foldl_cons, ih _ hstores, pairedHostSecret_update, if_neg hstore]

/-- After any calls the secret of a host is the one of the last call for it; a host that no
call was for has none. -/
theorem pairedHostSecret_stores (pairsDir : PairsDir) :
    (∀ (before : List Store) store after, (∀ other ∈ after, other.hostId ≠ store.hostId) →
        pairedHostSecret
            (some ((before ++ store :: after).foldl storePairedHost pairsDir)) store.hostId =
          .ok (some store.secret)) ∧
      ∀ (stores : List Store) hostId, (∀ store ∈ stores, store.hostId ≠ hostId) →
        pairsDir (pairedPath hostId) = none →
        pairedHostSecret (some (stores.foldl storePairedHost pairsDir)) hostId = .ok none := by
  constructor
  · intro before store after hafter
    rw [List.foldl_append, List.foldl_cons, pairedHostSecret_foldl _ hafter,
      pairedHostSecret_update, if_pos rfl]
  · intro stores hostId hnone hpath
    rw [pairedHostSecret_foldl _ hnone]
    simp only [pairedHostSecret, hpath]

/-- A call of a host with a name of its choice. -/
def forger (hostName : String) (byte : UInt8) : Store :=
  ⟨.replicate 16 2, hostName.toList, .replicate 32 byte⟩

def neighbour : Store := ⟨.replicate 16 1, "desk".toList, .replicate 32 8⟩

/-- A name with a line of its own does not outlive the next call. -/
theorem pairedHostSecret_stores_forger :
    pairedHostSecret
        (some (([forger "a\nsecret=b" 7, neighbour] ++
            forger "\r\nsecret=" 9 :: [neighbour]).foldl storePairedHost fun _ => none))
        (forger "\r\nsecret=" 9).hostId =
      .ok (some (forger "\r\nsecret=" 9).secret) :=
  (pairedHostSecret_stores fun _ => none).1 _ _ _ (by decide)

end SideWire.PairingRecords
