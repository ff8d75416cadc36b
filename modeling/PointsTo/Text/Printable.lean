/-!
# Printable characters

A character is shown as it is unless it is a control, format, private, unassigned or separator
character (a plain space apart), is ignored in display by default (a filler), or extends the
grapheme before it (a combining mark, a joiner; not the half-width voice marks, which take up a
place of their own). The table lists those characters beyond ASCII as ranges, each with its first
code point and the number of code points that follow the first one.
-/

namespace PointsTo.Text

/-- Ranges of the characters beyond ASCII that are not shown as they are. -/
def hiddenRanges : List (Nat × Nat) :=
  [(0x80, 32), (0xad, 0), (0x300, 111), (0x378, 1), (0x380, 3), (0x38b, 0), (0x38d, 0), (0x3a2, 0),
    (0x483, 6), (0x530, 0), (0x557, 1), (0x58b, 1), (0x590, 45), (0x5bf, 0), (0x5c1, 1),
    (0x5c4, 1), (0x5c7, 8), (0x5eb, 3), (0x5f5, 16), (0x610, 10), (0x61c, 0), (0x64b, 20),
    (0x670, 0), (0x6d6, 7), (0x6df, 5), (0x6e7, 1), (0x6ea, 3), (0x70e, 1), (0x711, 0),
    (0x730, 28), (0x7a6, 10), (0x7b2, 13), (0x7eb, 8), (0x7fb, 2), (0x816, 3), (0x81b, 8),
    (0x825, 2), (0x829, 6), (0x83f, 0), (0x859, 4), (0x85f, 0), (0x86b, 4), (0x890, 15),
    (0x8ca, 56), (0x93a, 0), (0x93c, 0), (0x941, 7), (0x94d, 0), (0x951, 6), (0x962, 1),
    (0x981, 0), (0x984, 0), (0x98d, 1), (0x991, 1), (0x9a9, 0), (0x9b1, 0), (0x9b3, 2), (0x9ba, 2),
    (0x9be, 0), (0x9c1, 5), (0x9c9, 1), (0x9cd, 0), (0x9cf, 12), (0x9de, 0), (0x9e2, 3),
    (0x9fe, 4), (0xa04, 0), (0xa0b, 3), (0xa11, 1), (0xa29, 0), (0xa31, 0), (0xa34, 0), (0xa37, 0),
    (0xa3a, 3), (0xa41, 23), (0xa5d, 0), (0xa5f, 6), (0xa70, 1), (0xa75, 0), (0xa77, 11),
    (0xa84, 0), (0xa8e, 0), (0xa92, 0), (0xaa9, 0), (0xab1, 0), (0xab4, 0), (0xaba, 2), (0xac1, 7),
    (0xaca, 0), (0xacd, 2), (0xad1, 14), (0xae2, 3), (0xaf2, 6), (0xafa, 7), (0xb04, 0),
    (0xb0d, 1), (0xb11, 1), (0xb29, 0), (0xb31, 0), (0xb34, 0), (0xb3a, 2), (0xb3e, 1), (0xb41, 5),
    (0xb49, 1), (0xb4d, 14), (0xb5e, 0), (0xb62, 3), (0xb78, 10), (0xb84, 0), (0xb8b, 2),
    (0xb91, 0), (0xb96, 2), (0xb9b, 0), (0xb9d, 0), (0xba0, 2), (0xba5, 2), (0xbab, 2), (0xbba, 4),
    (0xbc0, 0), (0xbc3, 2), (0xbc9, 0), (0xbcd, 2), (0xbd1, 20), (0xbfb, 5), (0xc04, 0),
    (0xc0d, 0), (0xc11, 0), (0xc29, 0), (0xc3a, 2), (0xc3e, 2), (0xc45, 18), (0xc5b, 0),
    (0xc5e, 1), (0xc62, 3), (0xc70, 6), (0xc81, 0), (0xc8d, 0), (0xc91, 0), (0xca9, 0), (0xcb4, 0),
    (0xcba, 2), (0xcbf, 1), (0xcc2, 0), (0xcc5, 22), (0xcdf, 0), (0xce2, 3), (0xcf0, 0),
    (0xcf4, 13), (0xd0d, 0), (0xd11, 0), (0xd3b, 1), (0xd3e, 0), (0xd41, 4), (0xd49, 0),
    (0xd4d, 0), (0xd50, 3), (0xd57, 0), (0xd62, 3), (0xd80, 1), (0xd84, 0), (0xd97, 2), (0xdb2, 0),
    (0xdbc, 0), (0xdbe, 1), (0xdc7, 8), (0xdd2, 5), (0xddf, 6), (0xdf0, 1), (0xdf5, 11),
    (0xe31, 0), (0xe34, 10), (0xe47, 7), (0xe5c, 36), (0xe83, 0), (0xe85, 0), (0xe8b, 0),
    (0xea4, 0), (0xea6, 0), (0xeb1, 0), (0xeb4, 8), (0xebe, 1), (0xec5, 0), (0xec7, 8), (0xeda, 1),
    (0xee0, 31), (0xf18, 1), (0xf35, 0), (0xf37, 0), (0xf39, 0), (0xf48, 0), (0xf6d, 17),
    (0xf80, 4), (0xf86, 1), (0xf8d, 48), (0xfc6, 0), (0xfcd, 0), (0xfdb, 36), (0x102d, 3),
    (0x1032, 5), (0x1039, 1), (0x103d, 1), (0x1058, 1), (0x105e, 2), (0x1071, 3), (0x1082, 0),
    (0x1085, 1), (0x108d, 0), (0x109d, 0), (0x10c6, 0), (0x10c8, 4), (0x10ce, 1), (0x115f, 1),
    (0x1249, 0), (0x124e, 1), (0x1257, 0), (0x1259, 0), (0x125e, 1), (0x1289, 0), (0x128e, 1),
    (0x12b1, 0), (0x12b6, 1), (0x12bf, 0), (0x12c1, 0), (0x12c6, 1), (0x12d7, 0), (0x1311, 0),
    (0x1316, 1), (0x135b, 4), (0x137d, 2), (0x139a, 5), (0x13f6, 1), (0x13fe, 1), (0x1680, 0),
    (0x169d, 2), (0x16f9, 6), (0x1712, 12), (0x1732, 2), (0x1737, 8), (0x1752, 13), (0x176d, 0),
    (0x1771, 14), (0x17b4, 1), (0x17b7, 6), (0x17c6, 0), (0x17c9, 10), (0x17dd, 2), (0x17ea, 5),
    (0x17fa, 5), (0x180b, 4), (0x181a, 5), (0x1879, 6), (0x1885, 1), (0x18a9, 0), (0x18ab, 4),
    (0x18f6, 9), (0x191f, 3), (0x1927, 1), (0x192c, 3), (0x1932, 0), (0x1939, 6), (0x1941, 2),
    (0x196e, 1), (0x1975, 10), (0x19ac, 3), (0x19ca, 5), (0x19db, 2), (0x1a17, 1), (0x1a1b, 2),
    (0x1a56, 0), (0x1a58, 8), (0x1a62, 0), (0x1a65, 7), (0x1a73, 12), (0x1a8a, 5), (0x1a9a, 5),
    (0x1aae, 85), (0x1b34, 9), (0x1b42, 2), (0x1b4d, 0), (0x1b6b, 8), (0x1b80, 1), (0x1ba2, 3),
    (0x1ba8, 5), (0x1be6, 0), (0x1be8, 1), (0x1bed, 0), (0x1bef, 12), (0x1c2c, 7), (0x1c36, 4),
    (0x1c4a, 2), (0x1c8b, 4), (0x1cbb, 1), (0x1cc8, 10), (0x1cd4, 12), (0x1ce2, 6), (0x1ced, 0),
    (0x1cf4, 0), (0x1cf8, 1), (0x1cfb, 4), (0x1dc0, 63), (0x1f16, 1), (0x1f1e, 1), (0x1f46, 1),
    (0x1f4e, 1), (0x1f58, 0), (0x1f5a, 0), (0x1f5c, 0), (0x1f5e, 0), (0x1f7e, 1), (0x1fb5, 0),
    (0x1fc5, 0), (0x1fd4, 1), (0x1fdc, 0), (0x1ff0, 1), (0x1ff5, 0), (0x1fff, 16), (0x2028, 7),
    (0x205f, 16), (0x2072, 1), (0x208f, 0), (0x209d, 2), (0x20c2, 61), (0x218c, 3), (0x242a, 21),
    (0x244b, 20), (0x2b74, 1), (0x2cef, 2), (0x2cf4, 4), (0x2d26, 0), (0x2d28, 4), (0x2d2e, 1),
    (0x2d68, 6), (0x2d71, 14), (0x2d97, 8), (0x2da7, 0), (0x2daf, 0), (0x2db7, 0), (0x2dbf, 0),
    (0x2dc7, 0), (0x2dcf, 0), (0x2dd7, 0), (0x2ddf, 32), (0x2e5e, 33), (0x2e9a, 0), (0x2ef4, 11),
    (0x2fd6, 25), (0x3000, 0), (0x302a, 5), (0x3040, 0), (0x3097, 3), (0x3100, 4), (0x3130, 0),
    (0x3164, 0), (0x318f, 0), (0x31e6, 8), (0x321f, 0), (0xa48d, 2), (0xa4c7, 8), (0xa62c, 19),
    (0xa66f, 3), (0xa674, 9), (0xa69e, 1), (0xa6f0, 1), (0xa6f8, 7), (0xa7dd, 19), (0xa802, 0),
    (0xa806, 0), (0xa80b, 0), (0xa825, 1), (0xa82c, 3), (0xa83a, 5), (0xa878, 7), (0xa8c4, 9),
    (0xa8da, 23), (0xa8ff, 0), (0xa926, 7), (0xa947, 10), (0xa953, 11), (0xa97d, 5), (0xa9b3, 0),
    (0xa9b6, 3), (0xa9bc, 1), (0xa9c0, 0), (0xa9ce, 0), (0xa9da, 3), (0xa9e5, 0), (0xa9ff, 0),
    (0xaa29, 5), (0xaa31, 1), (0xaa35, 10), (0xaa43, 0), (0xaa4c, 0), (0xaa4e, 1), (0xaa5a, 1),
    (0xaa7c, 0), (0xaab0, 0), (0xaab2, 2), (0xaab7, 1), (0xaabe, 1), (0xaac1, 0), (0xaac3, 23),
    (0xaaec, 1), (0xaaf6, 10), (0xab07, 1), (0xab0f, 1), (0xab17, 8), (0xab27, 0), (0xab2f, 0),
    (0xab6c, 3), (0xabe5, 0), (0xabe8, 0), (0xabed, 2), (0xabfa, 5), (0xd7a4, 11), (0xd7c7, 3),
    (0xd7fc, 8451), (0xfa6e, 1), (0xfada, 37), (0xfb07, 11), (0xfb18, 4), (0xfb1e, 0), (0xfb37, 0),
    (0xfb3d, 0), (0xfb3f, 0), (0xfb42, 0), (0xfb45, 0), (0xfdd0, 31), (0xfe00, 15), (0xfe1a, 21),
    (0xfe53, 0), (0xfe67, 0), (0xfe6c, 3), (0xfe75, 0), (0xfefd, 3), (0xffa0, 0), (0xffbf, 2),
    (0xffc8, 1), (0xffd0, 1), (0xffd8, 1), (0xffdd, 2), (0xffe7, 0), (0xffef, 12), (0xfffe, 1),
    (0x1000c, 0), (0x10027, 0), (0x1003b, 0), (0x1003e, 0), (0x1004e, 1), (0x1005e, 33),
    (0x100fb, 4), (0x10103, 3), (0x10134, 2), (0x1018f, 0), (0x1019d, 2), (0x101a1, 46),
    (0x101fd, 130), (0x1029d, 2), (0x102d1, 15), (0x102fc, 3), (0x10324, 8), (0x1034b, 4),
    (0x10376, 9), (0x1039e, 0), (0x103c4, 3), (0x103d6, 41), (0x1049e, 1), (0x104aa, 5),
    (0x104d4, 3), (0x104fc, 3), (0x10528, 7), (0x10564, 10), (0x1057b, 0), (0x1058b, 0),
    (0x10593, 0), (0x10596, 0), (0x105a2, 0), (0x105b2, 0), (0x105ba, 0), (0x105bd, 2),
    (0x105f4, 11), (0x10737, 8), (0x10756, 9), (0x10768, 23), (0x10786, 0), (0x107b1, 0),
    (0x107bb, 68), (0x10806, 1), (0x10809, 0), (0x10836, 0), (0x10839, 2), (0x1083d, 1),
    (0x10856, 0), (0x1089f, 7), (0x108b0, 47), (0x108f3, 0), (0x108f6, 4), (0x1091c, 2),
    (0x1093a, 4), (0x1095a, 37), (0x109b8, 3), (0x109d0, 1), (0x10a01, 14), (0x10a14, 0),
    (0x10a18, 0), (0x10a36, 9), (0x10a49, 6), (0x10a59, 6), (0x10aa0, 31), (0x10ae5, 5),
    (0x10af7, 8), (0x10b36, 2), (0x10b56, 1), (0x10b73, 4), (0x10b92, 6), (0x10b9d, 11),
    (0x10bb0, 79), (0x10c49, 54), (0x10cb3, 12), (0x10cf3, 6), (0x10d24, 11), (0x10d3a, 5),
    (0x10d66, 7), (0x10d86, 7), (0x10d90, 207), (0x10e7f, 0), (0x10eaa, 2), (0x10eae, 1),
    (0x10eb2, 15), (0x10ec8, 7), (0x10ed9, 38), (0x10f28, 7), (0x10f46, 10), (0x10f5a, 21),
    (0x10f82, 3), (0x10f8a, 37), (0x10fcc, 19), (0x10ff7, 8), (0x11001, 0), (0x11038, 14),
    (0x1104e, 3), (0x11070, 0), (0x11073, 1), (0x11076, 11), (0x110b3, 3), (0x110b9, 1),
    (0x110bd, 0), (0x110c2, 13), (0x110e9, 6), (0x110fa, 8), (0x11127, 4), (0x1112d, 8),
    (0x11148, 7), (0x11173, 0), (0x11177, 10), (0x111b6, 8), (0x111c0, 0), (0x111c9, 3),
    (0x111cf, 0), (0x111e0, 0), (0x111f5, 10), (0x11212, 0), (0x1122f, 2), (0x11234, 3),
    (0x1123e, 0), (0x11241, 62), (0x11287, 0), (0x11289, 0), (0x1128e, 0), (0x1129e, 0),
    (0x112aa, 5), (0x112df, 0), (0x112e3, 12), (0x112fa, 7), (0x11304, 0), (0x1130d, 1),
    (0x11311, 1), (0x11329, 0), (0x11331, 0), (0x11334, 0), (0x1133a, 2), (0x1133e, 0),
    (0x11340, 0), (0x11345, 1), (0x11349, 1), (0x1134d, 2), (0x11351, 11), (0x11364, 27),
    (0x1138a, 0), (0x1138c, 1), (0x1138f, 0), (0x113b6, 0), (0x113b8, 0), (0x113bb, 14),
    (0x113cb, 0), (0x113ce, 2), (0x113d2, 0), (0x113d6, 0), (0x113d9, 38), (0x11438, 7),
    (0x11442, 2), (0x11446, 0), (0x1145c, 0), (0x1145e, 0), (0x11462, 29), (0x114b0, 0),
    (0x114b3, 5), (0x114ba, 0), (0x114bd, 0), (0x114bf, 1), (0x114c2, 1), (0x114c8, 7),
    (0x114da, 165), (0x115af, 0), (0x115b2, 5), (0x115bc, 1), (0x115bf, 1), (0x115dc, 35),
    (0x11633, 7), (0x1163d, 0), (0x1163f, 1), (0x11645, 10), (0x1165a, 5), (0x1166d, 18),
    (0x116ab, 0), (0x116ad, 0), (0x116b0, 7), (0x116ba, 5), (0x116ca, 5), (0x116e4, 27),
    (0x1171b, 2), (0x1171f, 0), (0x11722, 3), (0x11727, 8), (0x11747, 184), (0x1182f, 8),
    (0x11839, 1), (0x1183c, 99), (0x118f3, 11), (0x11907, 1), (0x1190a, 1), (0x11914, 0),
    (0x11917, 0), (0x11930, 0), (0x11936, 0), (0x11939, 5), (0x11943, 0), (0x11947, 8),
    (0x1195a, 69), (0x119a8, 1), (0x119d4, 7), (0x119e0, 0), (0x119e5, 26), (0x11a01, 9),
    (0x11a33, 5), (0x11a3b, 3), (0x11a47, 8), (0x11a51, 5), (0x11a59, 2), (0x11a8a, 12),
    (0x11a98, 1), (0x11aa3, 12), (0x11af9, 6), (0x11b0a, 86), (0x11b62, 2), (0x11b66, 0),
    (0x11b68, 87), (0x11be2, 13), (0x11bfa, 5), (0x11c09, 0), (0x11c30, 13), (0x11c3f, 0),
    (0x11c46, 9), (0x11c6d, 2), (0x11c90, 24), (0x11caa, 6), (0x11cb2, 1), (0x11cb5, 74),
    (0x11d07, 0), (0x11d0a, 0), (0x11d31, 20), (0x11d47, 8), (0x11d5a, 5), (0x11d66, 0),
    (0x11d69, 0), (0x11d8f, 3), (0x11d95, 0), (0x11d97, 0), (0x11d99, 6), (0x11daa, 5),
    (0x11ddc, 3), (0x11dea, 245), (0x11ef3, 1), (0x11ef9, 8), (0x11f11, 0), (0x11f36, 7),
    (0x11f40, 2), (0x11f5a, 85), (0x11fb1, 14), (0x11ff2, 12), (0x1239a, 101), (0x1246f, 0),
    (0x12475, 10), (0x12544, 2635), (0x12ff3, 12), (0x13430, 16), (0x13447, 24), (0x143fb, 4),
    (0x14647, 6840), (0x1611e, 11), (0x1612d, 2), (0x1613a, 1733), (0x16a39, 6), (0x16a5f, 0),
    (0x16a6a, 3), (0x16abf, 0), (0x16aca, 5), (0x16aee, 6), (0x16af6, 9), (0x16b30, 6),
    (0x16b46, 9), (0x16b5a, 0), (0x16b62, 0), (0x16b78, 4), (0x16b90, 431), (0x16d7a, 197),
    (0x16e9b, 4), (0x16eb9, 1), (0x16ed4, 43), (0x16f4b, 4), (0x16f88, 10), (0x16fa0, 63),
    (0x16fe4, 13), (0x16ff7, 8), (0x18cd6, 40), (0x18d1f, 96), (0x18df3, 8700), (0x1aff4, 0),
    (0x1affc, 0), (0x1afff, 0), (0x1b123, 14), (0x1b133, 28), (0x1b153, 1), (0x1b156, 13),
    (0x1b168, 7), (0x1b2fc, 2307), (0x1bc6b, 4), (0x1bc7d, 2), (0x1bc89, 6), (0x1bc9a, 1),
    (0x1bc9d, 1), (0x1bca0, 3935), (0x1ccfd, 2), (0x1ceb4, 5), (0x1ced1, 14), (0x1cef1, 94),
    (0x1cfc4, 59), (0x1d0f6, 9), (0x1d127, 1), (0x1d165, 4), (0x1d16d, 21), (0x1d185, 6),
    (0x1d1aa, 3), (0x1d1eb, 20), (0x1d242, 2), (0x1d246, 121), (0x1d2d4, 11), (0x1d2f4, 11),
    (0x1d357, 8), (0x1d379, 134), (0x1d455, 0), (0x1d49d, 0), (0x1d4a0, 1), (0x1d4a3, 1),
    (0x1d4a7, 1), (0x1d4ad, 0), (0x1d4ba, 0), (0x1d4bc, 0), (0x1d4c4, 0), (0x1d506, 0),
    (0x1d50b, 1), (0x1d515, 0), (0x1d51d, 0), (0x1d53a, 0), (0x1d53f, 0), (0x1d545, 0),
    (0x1d547, 2), (0x1d551, 0), (0x1d6a6, 1), (0x1d7cc, 1), (0x1da00, 54), (0x1da3b, 49),
    (0x1da75, 0), (0x1da84, 0), (0x1da8c, 1139), (0x1df1f, 5), (0x1df2b, 260), (0x1e06e, 145),
    (0x1e12d, 9), (0x1e13e, 1), (0x1e14a, 3), (0x1e150, 319), (0x1e2ae, 17), (0x1e2ec, 3),
    (0x1e2fa, 4), (0x1e300, 463), (0x1e4ec, 3), (0x1e4fa, 213), (0x1e5ee, 1), (0x1e5fb, 3),
    (0x1e600, 191), (0x1e6df, 0), (0x1e6e3, 0), (0x1e6e6, 0), (0x1e6ee, 1), (0x1e6f5, 8),
    (0x1e700, 223), (0x1e7e7, 0), (0x1e7ec, 0), (0x1e7ef, 0), (0x1e7ff, 0), (0x1e8c5, 1),
    (0x1e8d0, 47), (0x1e944, 6), (0x1e94c, 3), (0x1e95a, 3), (0x1e960, 784), (0x1ecb5, 75),
    (0x1ed3e, 193), (0x1ee04, 0), (0x1ee20, 0), (0x1ee23, 0), (0x1ee25, 1), (0x1ee28, 0),
    (0x1ee33, 0), (0x1ee38, 0), (0x1ee3a, 0), (0x1ee3c, 5), (0x1ee43, 3), (0x1ee48, 0),
    (0x1ee4a, 0), (0x1ee4c, 0), (0x1ee50, 0), (0x1ee53, 0), (0x1ee55, 1), (0x1ee58, 0),
    (0x1ee5a, 0), (0x1ee5c, 0), (0x1ee5e, 0), (0x1ee60, 0), (0x1ee63, 0), (0x1ee65, 1),
    (0x1ee6b, 0), (0x1ee73, 0), (0x1ee78, 0), (0x1ee7d, 0), (0x1ee7f, 0), (0x1ee8a, 0),
    (0x1ee9c, 4), (0x1eea4, 0), (0x1eeaa, 0), (0x1eebc, 51), (0x1eef2, 269), (0x1f02c, 3),
    (0x1f094, 11), (0x1f0af, 1), (0x1f0c0, 0), (0x1f0d0, 0), (0x1f0f6, 9), (0x1f1ae, 55),
    (0x1f203, 12), (0x1f23c, 3), (0x1f249, 6), (0x1f252, 13), (0x1f266, 153), (0x1f6d9, 2),
    (0x1f6ed, 2), (0x1f6fd, 2), (0x1f7da, 5), (0x1f7ec, 3), (0x1f7f1, 14), (0x1f80c, 3),
    (0x1f848, 7), (0x1f85a, 5), (0x1f888, 7), (0x1f8ae, 1), (0x1f8bc, 3), (0x1f8c2, 13),
    (0x1f8d9, 38), (0x1fa58, 7), (0x1fa6e, 1), (0x1fa7d, 2), (0x1fa8b, 2), (0x1fac7, 0),
    (0x1fac9, 3), (0x1fadd, 1), (0x1faeb, 3), (0x1faf9, 6), (0x1fb93, 0), (0x1fbfb, 1028),
    (0x2a6e0, 31), (0x2b81e, 1), (0x2ceae, 1), (0x2ebe1, 14), (0x2ee5e, 2465), (0x2fa1e, 1505),
    (0x3134b, 4), (0x3347a, 904069)]

/-- The character is shown as it is in a quoted text. -/
def isPrintable (c : Char) : Bool :=
  let n := c.toNat
  if n < 0x7f then 0x20 ≤ n
  else if n < 0x80 then false
  else !hiddenRanges.any fun (lo, more) => lo ≤ n && n ≤ lo + more

end PointsTo.Text
