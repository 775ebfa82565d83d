import EventDispatcher.Base

/-!
# The addresses of the Unix clients and servers

A client and a server are given the same `addr_unix`, and each computes the length of the address
that it passes to the kernel.  For a file any length that holds the name will do.  For an abstract
name each byte of the length counts: the stream client forgets the family and the leading NUL, and
the datagram client passes the padding, so that the addresses agree exactly for the files
(`same_iff_file`).
-/

namespace EventDispatcher.LocalServer

/-! ### The addresses -/

/-- `addr_unix`, when it is named. -/
structure AddrUnix where
  /-- `is_abstract()`, or else `is_file()` -/
  isAbstract : Bool
  /-- The name. -/
  name : Str
  /-- There is a name. -/
  name_ne : name ≠ []
  /-- It holds no NUL. -/
  nul_notMem : nul ∉ name
  /-- It fits in `sun_path`, with the NUL in front of it or behind it. -/
  length_le : name.length + (if isAbstract then 1 else 0) ≤ 107

/-- `sizeof(un.sun_family)` -/
def sizeofFamily : ℕ := 2

/-- The size of `sun_path` -/
def sizeofPath : ℕ := 108

/-- `sizeof(struct sockaddr_un)` -/
def sizeofUn : ℕ := sizeofFamily + sizeofPath

/-- What is passed to the kernel: the bytes of `sun_path`, the family being `AF_UNIX`, and the
length. -/
structure Passed where
  /-- `sun_path` -/
  path : Str
  /-- The length of the address. -/
  length : ℕ
deriving DecidableEq, Repr

namespace AddrUnix

/-- `get_un()`: the bytes of `sun_path`. -/
def getUn (a : AddrUnix) : Str :=
  let path := (if a.isAbstract then [nul] else []) ++ a.name
  path ++ List.replicate (sizeofPath - path.length) nul

end AddrUnix

/-- `strlen(un.sun_path + 1)` -/
def strlenAfterNul (path : Str) : ℕ := (cStr (path.drop 1)).length

/-- What `local_stream_client_connection` passes to `connect()`. -/
def localStreamClientConnect (a : AddrUnix) : Passed :=
  let un := a.getUn
  if a.isAbstract then
    let size := strlenAfterNul un
    ⟨un, size⟩
  else ⟨un, sizeofUn⟩

/-- What `local_dgram_client::send()` passes to `sendto()`. -/
def localDgramClientSend (a : AddrUnix) : Passed := ⟨a.getUn, sizeofUn⟩

/-- What the constructors of the two servers pass to `bind()`. -/
def bindAddress (a : AddrUnix) : Passed :=
  let un := a.getUn
  if a.isAbstract then
    let size := sizeofFamily + 1 + strlenAfterNul un
    ⟨un, size⟩
  else ⟨un, sizeofUn⟩

/-- What `local_stream_server_connection` passes to `bind()`. -/
def localStreamServerBind (a : AddrUnix) : Passed := bindAddress a

/-- What `local_dgram_server` passes to `bind()`. -/
def localDgramServerBind (a : AddrUnix) : Passed := bindAddress a

/-! ### The kernel -/

/-- A socket of the system. -/
inductive Designation where
  | file (path : Str)
  | abstract (bytes : Str)
deriving DecidableEq, Repr

/-- The socket that an address designates: a path ends at its first NUL, an abstract name is all
the bytes up to the length.  The length is refused when it leaves nothing of `sun_path` or is
larger than the address. -/
def Passed.designates (p : Passed) : Option Designation :=
  if p.length ≤ sizeofFamily ∨ sizeofUn < p.length then none
  else
    let bytes := p.path.take (p.length - sizeofFamily)
    if bytes.head? = some nul then some (.abstract bytes) else some (.file (cStr bytes))

/-- Two addresses designate the same socket. -/
def Same (p q : Passed) : Prop := ∃ d, p.designates = some d ∧ q.designates = some d

/-! ### What is designated -/

section Designates

variable (a : AddrUnix)

lemma getUn_abstract (h : a.isAbstract = true) :
    a.getUn = nul :: (a.name ++ List.replicate (107 - a.name.length) nul) := by
  rw [AddrUnix.getUn, h]
  simp [sizeofPath]

lemma getUn_file (h : a.isAbstract = false) :
    a.getUn = a.name ++ List.replicate (108 - a.name.length) nul := by
  rw [AddrUnix.getUn, h]
  simp [sizeofPath]

lemma cStr_name_append (n : ℕ) : cStr (a.name ++ List.replicate n nul) = a.name := by
  rw [cStr, List.takeWhile_append_of_pos]
  · cases n <;> simp [List.replicate_succ]
  · intro c hc
    have hne : c ≠ nul := fun h => a.nul_notMem (h ▸ hc)
    simpa using hne

lemma strlenAfterNul_getUn (h : a.isAbstract = true) : strlenAfterNul a.getUn = a.name.length := by
  rw [strlenAfterNul, getUn_abstract a h, List.drop_one, List.tail_cons, cStr_name_append]

/-- The first bytes of an abstract address are its name behind a NUL. -/
lemma designates_abstract (h : a.isAbstract = true) {n : ℕ} (hpos : 3 ≤ n) (hle : n ≤ 110) :
    (⟨a.getUn, n⟩ : Passed).designates = some (.abstract (a.getUn.take (n - 2))) := by
  have hhead : (a.getUn.take (n - 2)).head? = some nul := by
    rw [getUn_abstract a h, List.head?_take, if_neg (by omega), List.head?_cons]
  have hvalid : ¬ (n ≤ sizeofFamily ∨ sizeofUn < n) := by
    rw [sizeofUn, sizeofFamily, sizeofPath]
    omega
  rw [Passed.designates, if_neg hvalid]
  exact if_pos hhead

/-- The servers of an abstract name bind the NUL and the name. -/
lemma bindAddress_abstract (h : a.isAbstract = true) :
    (bindAddress a).designates = some (.abstract (nul :: a.name)) := by
  have hpos := List.length_pos_iff.mpr a.name_ne
  have hle := a.length_le
  rw [h, if_pos rfl] at hle
  have hbind : bindAddress a = ⟨a.getUn, 3 + a.name.length⟩ := by
    rw [bindAddress, strlenAfterNul_getUn a h, h]
    rfl
  have htake : a.getUn.take (3 + a.name.length - 2) = nul :: a.name := by
    have hlen : 3 + a.name.length - 2 = a.name.length + 1 := by omega
    rw [hlen, getUn_abstract a h, List.take_succ_cons, List.take_left]
  rw [hbind, designates_abstract a h (by omega) (by omega), htake]

/-- The whole address of a file designates the file. -/
lemma designates_file (h : a.isAbstract = false) :
    (⟨a.getUn, sizeofUn⟩ : Passed).designates = some (.file a.name) := by
  have hle := a.length_le
  rw [h, if_neg (by simp)] at hle
  have htake : a.getUn.take (sizeofUn - sizeofFamily) = a.getUn := by
    refine List.take_of_length_le ?_
    rw [getUn_file a h, List.length_append, List.length_replicate]
    change _ ≤ 108
    omega
  have hhead : a.getUn.head? ≠ some nul := by
    obtain ⟨c, s, hname⟩ := List.exists_cons_of_ne_nil a.name_ne
    rw [getUn_file a h, hname, List.cons_append, List.head?_cons]
    intro hc
    refine a.nul_notMem ?_
    rw [hname, ← Option.some.inj hc]
    exact List.mem_cons_self
  have hvalid : ¬ (sizeofUn ≤ sizeofFamily ∨ sizeofUn < sizeofUn) := by decide
  rw [Passed.designates, if_neg hvalid]
  dsimp only
  rw [htake, if_neg hhead, getUn_file a h, cStr_name_append]

end Designates

/-- A client and a server that are given the same address designate the same socket exactly when
the address is a file. -/
theorem same_iff_file (a : AddrUnix) :
    (Same (localStreamClientConnect a) (localStreamServerBind a) ↔ a.isAbstract = false) ∧
      (Same (localDgramClientSend a) (localDgramServerBind a) ↔ a.isAbstract = false) := by
  by_cases h : a.isAbstract = true
  · have hbind := bindAddress_abstract a h
    have hle := a.length_le
    rw [h, if_pos rfl] at hle
    have hnot : ∀ n ≤ 110, n ≠ a.name.length + 3 → ¬ Same ⟨a.getUn, n⟩ (bindAddress a) := by
      rintro n hn hne ⟨d, hclient, hserver⟩
      by_cases hpos : 3 ≤ n
      · rw [designates_abstract a h hpos hn] at hclient
        rw [hbind, ← hclient, Option.some.injEq, Designation.abstract.injEq] at hserver
        have hlength := congrArg List.length hserver
        rw [List.length_take, getUn_abstract a h] at hlength
        simp only [List.length_cons, List.length_append, List.length_replicate] at hlength
        omega
      · rw [Passed.designates, if_pos (.inl (by change n ≤ 2; omega))] at hclient
        cases hclient
    have hconnect : localStreamClientConnect a = ⟨a.getUn, a.name.length⟩ := by
      rw [localStreamClientConnect, strlenAfterNul_getUn a h, h]
      rfl
    have habstract : ¬ a.isAbstract = false := by simp [h]
    rw [iff_false_intro habstract, iff_false, iff_false, hconnect]
    exact ⟨hnot _ (by omega) (by omega), hnot _ (by decide) (by change 110 ≠ _; omega)⟩
  · rw [Bool.not_eq_true] at h
    have hfile := designates_file a h
    have hbind : bindAddress a = ⟨a.getUn, sizeofUn⟩ := by
      rw [bindAddress, h]
      rfl
    have hconnect : localStreamClientConnect a = ⟨a.getUn, sizeofUn⟩ := by
      rw [localStreamClientConnect, h]
      rfl
    rw [iff_true_intro h, iff_true, iff_true, hconnect, localStreamServerBind,
      localDgramServerBind, hbind]
    exact ⟨⟨_, hfile, hfile⟩, ⟨_, hfile, hfile⟩⟩

/-- The abstract name `test`. -/
def abstractTest : AddrUnix where
  isAbstract := true
  name := ['t', 'e', 's', 't']
  name_ne := by decide
  nul_notMem := by decide
  length_le := by decide

/-- A stream client connects to `t`, and a datagram client sends to a name with the padding: neither
designates the socket of its server. -/
theorem abstractTest_designates :
    (localStreamClientConnect abstractTest).designates = some (.abstract [nul, 't']) ∧
      (localDgramClientSend abstractTest).designates =
        some (.abstract (nul :: ['t', 'e', 's', 't'] ++ List.replicate 103 nul)) ∧
      (localStreamServerBind abstractTest).designates =
        some (.abstract [nul, 't', 'e', 's', 't']) ∧
      (localDgramServerBind abstractTest).designates =
        some (.abstract [nul, 't', 'e', 's', 't']) ∧
      ¬ Same (localStreamClientConnect abstractTest) (localStreamServerBind abstractTest) ∧
      ¬ Same (localDgramClientSend abstractTest) (localDgramServerBind abstractTest) := by
  have hstream : (localStreamClientConnect abstractTest).designates =
      some (.abstract [nul, 't']) := by decide
  have hdgram : (localDgramClientSend abstractTest).designates =
      some (.abstract (nul :: ['t', 'e', 's', 't'] ++ List.replicate 103 nul)) := by decide
  have hserver : (localStreamServerBind abstractTest).designates =
      some (.abstract [nul, 't', 'e', 's', 't']) := by decide
  refine ⟨hstream, hdgram, hserver, hserver, ?_, ?_⟩
  · rintro ⟨d, hclient, hbound⟩
    rw [hstream, ← hbound, hserver] at hclient
    exact absurd hclient (by decide)
  · rintro ⟨d, hclient, hbound⟩
    rw [hdgram, ← hbound, localDgramServerBind, ← localStreamServerBind, hserver] at hclient
    exact absurd hclient (by decide)

end EventDispatcher.LocalServer
