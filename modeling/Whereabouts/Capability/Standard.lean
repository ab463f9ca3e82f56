import Whereabouts.Capability.Basic

/-! # The standard catalogue

The identifiers that clients are known to send.  Most share one family and differ in the third
and fourth octet, which is what the short form keeps.  Two rows stand for games: older clients
swap two octets of that identifier, and the row in front is the one that is written. -/

namespace Whereabouts
namespace Catalogue

/-- The identifier of the common family with these octets in the third and fourth place. -/
def family (high low : Nat) : Identifier :=
  .ofNat (0x09460000_4C7F11D1_82224445_53540000 + high <<< 104 + low <<< 96)

def capability (bit : Nat) (name : String) (id : Identifier) : Capability :=
  ⟨.ofBit bit, name, id⟩

/-- The capabilities, in the order of their look-up. -/
def standardCapabilities : List Capability :=
  [capability 3 "chat" (.ofNat 0x748F2420628711D18222444553540000),
    capability 0 "buddy-icon" (family 0x13 0x46),
    capability 1 "voice" (family 0x13 0x41),
    capability 2 "direct-im" (family 0x13 0x45),
    capability 4 "get-file" (family 0x13 0x48),
    capability 5 "send-file" (family 0x13 0x43),
    capability 6 "games" (family 0x13 0x47),
    capability 6 "games" (.ofNat 0x0946134A4C7F11D12282444553540000),
    capability 7 "add-ins" (family 0x13 0x4C),
    capability 8 "send-buddy-list" (family 0x13 0x4B),
    capability 9 "icq-direct" (family 0x13 0x44),
    capability 10 "ap-info" (.ofNat 0xAA4A32B5F88448C6A3D78C509719FD5B),
    capability 11 "icq-rtf" (.ofNat 0x97B12751243C4334AD22D6ABF73F1492),
    capability 12 "short-caps" (family 0x00 0x00),
    capability 13 "icq-server-relay" (family 0x13 0x49),
    capability 14 "unicode-old" (.ofNat 0x2E7A6475FADF4DC8886FEA3595FDB6DF),
    capability 15 "trillian-crypt" (.ofNat 0xF2E7C7F4FEAD4DFBB23536798BDF0000),
    capability 16 "unicode" (family 0x13 0x4E),
    capability 17 "interoperate" (family 0x13 0x4D),
    capability 18 "hiptop" (family 0x13 0x23),
    capability 19 "secure-im" (family 0x00 0x01),
    capability 20 "video" (family 0x01 0x00),
    capability 21 "live-video" (family 0x01 0x01),
    capability 22 "camera" (family 0x01 0x02),
    capability 24 "ichat-av" (family 0x01 0x03),
    capability 23 "screen-share" (family 0x01 0x05),
    capability 27 "sms" (family 0x01 0xFF),
    capability 25 "typing" (.ofNat 0x563FC8090B6F41BD9F79422609DFA2F3),
    capability 26 "xtraz" (.ofNat 0x1A093C6CD7FD4EC59D51A6474E34F5A0)]

/-- The custom icons.  Row 0 stands for none. -/
def standardIcons : List IconRow :=
  [⟨"none", "", .ofNat 0⟩,
    ⟨"angry", "icqmood1", .ofNat 0x01D8D7EEAC3B492AA58DD3D877E66B92⟩,
    ⟨"duck", "icqmood2", .ofNat 0x5A581EA1E580430CA06F612298B7E4C7⟩,
    ⟨"tired", "icqmood3", .ofNat 0x83C9B78E77E74378B2C5FB6CFCC35BEC⟩,
    ⟨"party", "icqmood4", .ofNat 0xE601E41C33734BD1BC06811D6C323D81⟩,
    ⟨"beer", "icqmood5", .ofNat 0x8C50DBAE81ED4786ACCA16CC3213C7B7⟩,
    ⟨"thinking", "icqmood6", .ofNat 0x3FB0BD36AF3B4A609EEFCF190F6A5A7F⟩,
    ⟨"eating", "icqmood7", .ofNat 0xF8E8D7B282C4414290F810C6CE0A89A6⟩,
    ⟨"tv", "icqmood8", .ofNat 0x80537DE2A4674A76B3546DFD075F5EC6⟩,
    ⟨"friends", "icqmood9", .ofNat 0xF18AB52EDC57491D99DC6444502457AF⟩,
    ⟨"coffee", "icqmood10", .ofNat 0x1B78AE31FA0B4D3893D1997EEEAFB218⟩,
    ⟨"music", "icqmood11", .ofNat 0x61BEE0DD8BDD475D8DEE5F4BAACF19A7⟩,
    ⟨"business", "icqmood12", .ofNat 0x488E14898ACA4A0882AA77CE7A165208⟩,
    ⟨"camera", "icqmood13", .ofNat 0x107A9A1812324DA4B6CD0879DB780F09⟩,
    ⟨"funny", "icqmood14", .ofNat 0x6F4930984F7C4AFFA27634A03BCEAEA7⟩,
    ⟨"phone", "icqmood15", .ofNat 0x1292E5501B644F66B206B29AF378E48D⟩,
    ⟨"games", "icqmood16", .ofNat 0xD4A611D08F014EC09223C5B6BEC6CCF0⟩,
    ⟨"college", "icqmood17", .ofNat 0x609D52F8A29A49A6B2A02524C5E9D260⟩,
    ⟨"shopping", "icqmood18", .ofNat 0x63627337A03F49FF80E5F709CDE0A4EE⟩,
    ⟨"sick", "icqmood19", .ofNat 0x1F7A4071BF3B4E60BC324C5787B04CF1⟩,
    ⟨"sleeping", "icqmood20", .ofNat 0x785E8C4840D34C65886F04CF3F3F43DF⟩,
    ⟨"surfing", "icqmood21", .ofNat 0xA6ED557E6BF744D4A5D4D2E7D95CE81F⟩,
    ⟨"internet", "icqmood22", .ofNat 0x12D07E3EF885489E8E97A72A6551E58D⟩,
    ⟨"engineering", "icqmood23", .ofNat 0xBA74DB3E9E24434B87B62F6B8DFEE50F⟩,
    ⟨"typing", "icqmood24", .ofNat 0x634F6BD8ADD24AA1AAB9115BC26D05A1⟩]

/-- The catalogue in use unless another is asked for. -/
def standard : Catalogue := ⟨standardCapabilities, standardIcons⟩

end Catalogue
end Whereabouts
