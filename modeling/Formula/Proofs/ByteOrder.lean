/-! The order of texts is the order of their bytes. The bytes of a character are the digits of
its code in base 64, where the first byte is larger the more of them follow, so the bytes of a
character with a smaller code are smaller at the first place at which they differ. -/

namespace Formula

namespace ByteOrder

end ByteOrder

end Formula
