import BpfIma.Library.Numerals
import BpfIma.Model.LsmHooks

/-! # The data of a connection

What `bpf_socket_connect` measures: the two endpoints as text, complete, and which connections
have the same. -/

namespace BpfIma

open CString Text

/-- An address as four numbers, and a port. -/
def endpointText (addr : UInt32) (port : UInt16) : Bytes :=
  decimal (addr.toNat % 256) ++ 46 :: (decimal (addr.toNat / 256 % 256) ++
    46 :: (decimal (addr.toNat / 65536 % 256) ++ 46 :: (decimal (addr.toNat / 16777216) ++
      58 :: decimal port.toNat)))

/-- Source and destination. -/
def socketText (sk : Sock) (address : Sockaddr) : Bytes :=
  endpointText sk.skcRcvSaddr sk.skcNum ++
    45 :: endpointText address.sinAddr (bpfNtohs address.sinPort)

theorem octets (addr : UInt32) :
    (addr &&& 0xff).toUInt64.toUInt32.toNat = addr.toNat % 256 ∧
      (addr >>> 8 &&& 0xff).toUInt64.toUInt32.toNat = addr.toNat / 256 % 256 ∧
      (addr >>> 16 &&& 0xff).toUInt64.toUInt32.toNat = addr.toNat / 65536 % 256 ∧
      (addr >>> 24 &&& 0xff).toUInt64.toUInt32.toNat = addr.toNat / 16777216 := by
  have hmask (n : ℕ) : n &&& 255 = n % 256 := Nat.and_two_pow_sub_one_eq_mod n 8
  have hlt := addr.toNat_lt
  simp only [UInt32.toUInt32_toUInt64, UInt32.toNat_and, UInt32.toNat_shiftRight,
    UInt32.reduceToNat, hmask, Nat.reduceMod, Nat.shiftRight_eq_div_pow, Nat.reducePow, true_and]
  omega

theorem length_endpointText_le (addr : UInt32) (port : UInt16) :
    (endpointText addr port).length ≤ 21 := by
  have haddr := addr.toNat_lt
  have hport := port.toNat_lt
  have h1 := Numerals.length_decimal_le 2 (show addr.toNat % 256 < 10 ^ 3 by omega)
  have h2 := Numerals.length_decimal_le 2 (show addr.toNat / 256 % 256 < 10 ^ 3 by omega)
  have h3 := Numerals.length_decimal_le 2 (show addr.toNat / 65536 % 256 < 10 ^ 3 by omega)
  have h4 := Numerals.length_decimal_le 2 (show addr.toNat / 16777216 < 10 ^ 3 by omega)
  have h5 := Numerals.length_decimal_le 4 (show port.toNat < 10 ^ 5 by omega)
  simp only [endpointText, List.length_append, List.length_cons]
  omega

theorem length_socketText_le (sk : Sock) (address : Sockaddr) :
    (socketText sk address).length ≤ 43 := by
  have hsource := length_endpointText_le sk.skcRcvSaddr sk.skcNum
  have hdestination := length_endpointText_le address.sinAddr (bpfNtohs address.sinPort)
  rw [socketText, List.length_append, List.length_cons]
  omega

/-- The format of the program, field by field. -/
theorem formatU_socket (a b c d p e f g h q : UInt64) :
    formatU "%u.%u.%u.%u:%u-%u.%u.%u.%u:%u".ascii [a, b, c, d, p, e, f, g, h, q] =
      decimal a.toUInt32.toNat ++ 46 :: (decimal b.toUInt32.toNat ++
        46 :: (decimal c.toUInt32.toNat ++ 46 :: (decimal d.toUInt32.toNat ++
          58 :: (decimal p.toUInt32.toNat ++ 45 :: (decimal e.toUInt32.toNat ++
            46 :: (decimal f.toUInt32.toNat ++ 46 :: (decimal g.toUInt32.toNat ++
              46 :: (decimal h.toUInt32.toNat ++ 58 ::
                (decimal q.toUInt32.toNat ++ []))))))))) := by
  rfl

/-- The text of both endpoints always has room. -/
theorem socketData_eq (sk : Sock) (address : Sockaddr) :
    (socketData sk address).1 = (socketText sk address).length ∧
      (socketData sk address).2.toList.take (socketData sk address).1 = socketText sk address := by
  have hlength := length_socketText_le sk address
  have hsize : maxDataBufSize = 64 := rfl
  obtain ⟨hs1, hs2, hs3, hs4⟩ := octets sk.skcRcvSaddr
  obtain ⟨hd1, hd2, hd3, hd4⟩ := octets address.sinAddr
  have hbuild : buildSocketAdditionalData maxDataBufSize sk.skcRcvSaddr address.sinAddr sk.skcNum
      (bpfNtohs address.sinPort) = (((socketText sk address).length + 1 : ℤ),
        snprintf maxDataBufSize (socketText sk address)) := by
    simp only [buildSocketAdditionalData, formatU_socket, hs1, hs2, hs3, hs4, hd1, hd2, hd3, hd4]
    simp [socketText, endpointText, List.append_assoc]
  have hpos : ((socketText sk address).length + 1 : ℤ) > 0 := by omega
  have hfits : ¬ ((socketText sk address).length + 1 : ℤ) > maxDataBufSize := by omega
  have hexact : ((socketText sk address).length + 1 - 1 : ℤ).toNat =
      (socketText sk address).length := by omega
  have hinside : (socketText sk address).length < maxDataBufSize := by omega
  simp only [socketData, hbuild, if_pos hpos, if_neg hfits, hexact, dif_pos hinside]
  refine ⟨trivial, ?_⟩
  rw [List.Vector.toList_set, List.take_set_of_le (le_refl _), snprintf, toList_strscpy hinside,
    List.take_left]

/-! ## Equal texts -/

theorem decimal_append_inj {m n : ℕ} {sep : UInt8} {rest rest' : Bytes}
    (hsep : sep.toNat < 48 ∨ 57 < sep.toNat)
    (h : decimal m ++ sep :: rest = decimal n ++ sep :: rest') : m = n ∧ rest = rest' := by
  have hcut := cut_append (notMem_decimal hsep m) rest
  rw [h, cut_append (notMem_decimal hsep n)] at hcut
  obtain ⟨hdecimal, hrest⟩ := Prod.mk.inj (Option.some.inj hcut)
  refine ⟨?_, hrest.symm⟩
  rw [← parseDecimal_decimal m, ← hdecimal, parseDecimal_decimal]

theorem endpointText_append_inj {addr addr' : UInt32} {port port' : UInt16} {rest rest' : Bytes}
    (h : endpointText addr port ++ 45 :: rest = endpointText addr' port' ++ 45 :: rest') :
    addr = addr' ∧ port = port' ∧ rest = rest' := by
  have hdot : (46 : UInt8).toNat < 48 ∨ 57 < (46 : UInt8).toNat := by decide
  have hcolon : (58 : UInt8).toNat < 48 ∨ 57 < (58 : UInt8).toNat := by decide
  have hdash : (45 : UInt8).toNat < 48 ∨ 57 < (45 : UInt8).toNat := by decide
  simp only [endpointText, List.append_assoc, List.cons_append] at h
  obtain ⟨h1, h⟩ := decimal_append_inj hdot h
  obtain ⟨h2, h⟩ := decimal_append_inj hdot h
  obtain ⟨h3, h⟩ := decimal_append_inj hdot h
  obtain ⟨h4, h⟩ := decimal_append_inj hcolon h
  obtain ⟨h5, h⟩ := decimal_append_inj hdash h
  refine ⟨UInt32.toNat_inj.mp ?_, UInt16.toNat_inj.mp h5, h⟩
  omega

theorem toNat_bpfNtohs (x : UInt16) : (bpfNtohs x).toNat = x.toNat % 256 * 256 + x.toNat / 256 := by
  have hlt := x.toNat_lt
  have hhigh : x.toNat <<< 8 % 65536 = (x.toNat % 256) <<< 8 := by
    rw [Nat.shiftLeft_eq, Nat.shiftLeft_eq]
    omega
  have hlow : x.toNat >>> 8 < 2 ^ 8 := by
    rw [Nat.shiftRight_eq_div_pow]
    omega
  simp only [bpfNtohs, UInt16.toNat_or, UInt16.toNat_shiftLeft, UInt16.toNat_shiftRight,
    UInt16.reduceToNat, Nat.reduceMod, Nat.reducePow, hhigh]
  rw [← Nat.shiftLeft_add_eq_or_of_lt hlow, Nat.shiftLeft_eq, Nat.shiftRight_eq_div_pow]

theorem exists_six (v : Buffer 126) : ∃ a b c d e f rest,
    v.toList = a :: b :: c :: d :: e :: f :: rest := by
  have hlength := v.toList_length
  match hv : v.toList with
  | a :: b :: c :: d :: e :: f :: rest => exact ⟨a, b, c, d, e, f, rest, rfl⟩
  | [] | [_] | [_, _] | [_, _, _] | [_, _, _, _] | [_, _, _, _, _] =>
      rw [hv] at hlength
      simp at hlength

/-- The six bytes behind the family are all of the address that the text shows. -/
theorem destination_eq_iff (address address' : Sockaddr) :
    (address.sinAddr = address'.sinAddr ∧
        bpfNtohs address.sinPort = bpfNtohs address'.sinPort) ↔
      address.saData.toList.take 6 = address'.saData.toList.take 6 := by
  obtain ⟨a, b, c, d, e, f, rest, hdata⟩ := exists_six address.saData
  obtain ⟨a', b', c', d', e', f', rest', hdata'⟩ := exists_six address'.saData
  have ha := a.toNat_lt
  have hb := b.toNat_lt
  have hc := c.toNat_lt
  have hd := d.toNat_lt
  have he := e.toNat_lt
  have hf := f.toNat_lt
  have ha' := a'.toNat_lt
  have hb' := b'.toNat_lt
  have hc' := c'.toNat_lt
  have hd' := d'.toNat_lt
  have he' := e'.toNat_lt
  have hf' := f'.toNat_lt
  simp only [Sockaddr.sinAddr, Sockaddr.sinPort, hdata, hdata', List.drop_succ_cons, List.drop_zero,
    List.take_succ_cons, List.take_zero, Layout.littleEndian, List.cons.injEq, and_true,
    ← UInt8.toNat_inj, ← UInt16.toNat_inj, ← UInt32.toNat_inj, toNat_bpfNtohs, UInt16.toNat_ofNat',
    UInt32.toNat_ofNat']
  omega

theorem socketText_eq_iff (sk sk' : Sock) (address address' : Sockaddr) :
    socketText sk address = socketText sk' address' ↔
      sk = sk' ∧ address.saData.toList.take 6 = address'.saData.toList.take 6 := by
  rw [← destination_eq_iff]
  constructor
  · intro h
    obtain ⟨hsaddr, hsport, hrest⟩ := endpointText_append_inj h
    obtain ⟨hdaddr, hdport, -⟩ := endpointText_append_inj (congrArg (· ++ 45 :: []) hrest)
    obtain ⟨saddr, sport⟩ := sk
    obtain ⟨saddr', sport'⟩ := sk'
    exact ⟨by rw [Sock.mk.injEq]; exact ⟨hsaddr, hsport⟩, hdaddr, hdport⟩
  · rintro ⟨rfl, haddr, hport⟩
    rw [socketText, socketText, haddr, hport]

end BpfIma
