import EntityModels.Unicode.Ranges

/-!
The characters with the derived property Uppercase, as of Unicode 17.0.
-/

namespace EntityModels.Unicode

def uppercase : Ranges :=
  [(0x41, 0x5A), (0xC0, 0xD6), (0xD8, 0xDE), (0x100, 0x100), (0x102, 0x102), (0x104, 0x104),
    (0x106, 0x106), (0x108, 0x108), (0x10A, 0x10A), (0x10C, 0x10C), (0x10E, 0x10E),
    (0x110, 0x110), (0x112, 0x112), (0x114, 0x114), (0x116, 0x116), (0x118, 0x118),
    (0x11A, 0x11A), (0x11C, 0x11C), (0x11E, 0x11E), (0x120, 0x120), (0x122, 0x122),
    (0x124, 0x124), (0x126, 0x126), (0x128, 0x128), (0x12A, 0x12A), (0x12C, 0x12C),
    (0x12E, 0x12E), (0x130, 0x130), (0x132, 0x132), (0x134, 0x134), (0x136, 0x136),
    (0x139, 0x139), (0x13B, 0x13B), (0x13D, 0x13D), (0x13F, 0x13F), (0x141, 0x141),
    (0x143, 0x143), (0x145, 0x145), (0x147, 0x147), (0x14A, 0x14A), (0x14C, 0x14C),
    (0x14E, 0x14E), (0x150, 0x150), (0x152, 0x152), (0x154, 0x154), (0x156, 0x156),
    (0x158, 0x158), (0x15A, 0x15A), (0x15C, 0x15C), (0x15E, 0x15E), (0x160, 0x160),
    (0x162, 0x162), (0x164, 0x164), (0x166, 0x166), (0x168, 0x168), (0x16A, 0x16A),
    (0x16C, 0x16C), (0x16E, 0x16E), (0x170, 0x170), (0x172, 0x172), (0x174, 0x174),
    (0x176, 0x176), (0x178, 0x179), (0x17B, 0x17B), (0x17D, 0x17D), (0x181, 0x182),
    (0x184, 0x184), (0x186, 0x187), (0x189, 0x18B), (0x18E, 0x191), (0x193, 0x194),
    (0x196, 0x198), (0x19C, 0x19D), (0x19F, 0x1A0), (0x1A2, 0x1A2), (0x1A4, 0x1A4),
    (0x1A6, 0x1A7), (0x1A9, 0x1A9), (0x1AC, 0x1AC), (0x1AE, 0x1AF), (0x1B1, 0x1B3),
    (0x1B5, 0x1B5), (0x1B7, 0x1B8), (0x1BC, 0x1BC), (0x1C4, 0x1C4), (0x1C7, 0x1C7),
    (0x1CA, 0x1CA), (0x1CD, 0x1CD), (0x1CF, 0x1CF), (0x1D1, 0x1D1), (0x1D3, 0x1D3),
    (0x1D5, 0x1D5), (0x1D7, 0x1D7), (0x1D9, 0x1D9), (0x1DB, 0x1DB), (0x1DE, 0x1DE),
    (0x1E0, 0x1E0), (0x1E2, 0x1E2), (0x1E4, 0x1E4), (0x1E6, 0x1E6), (0x1E8, 0x1E8),
    (0x1EA, 0x1EA), (0x1EC, 0x1EC), (0x1EE, 0x1EE), (0x1F1, 0x1F1), (0x1F4, 0x1F4),
    (0x1F6, 0x1F8), (0x1FA, 0x1FA), (0x1FC, 0x1FC), (0x1FE, 0x1FE), (0x200, 0x200),
    (0x202, 0x202), (0x204, 0x204), (0x206, 0x206), (0x208, 0x208), (0x20A, 0x20A),
    (0x20C, 0x20C), (0x20E, 0x20E), (0x210, 0x210), (0x212, 0x212), (0x214, 0x214),
    (0x216, 0x216), (0x218, 0x218), (0x21A, 0x21A), (0x21C, 0x21C), (0x21E, 0x21E),
    (0x220, 0x220), (0x222, 0x222), (0x224, 0x224), (0x226, 0x226), (0x228, 0x228),
    (0x22A, 0x22A), (0x22C, 0x22C), (0x22E, 0x22E), (0x230, 0x230), (0x232, 0x232),
    (0x23A, 0x23B), (0x23D, 0x23E), (0x241, 0x241), (0x243, 0x246), (0x248, 0x248),
    (0x24A, 0x24A), (0x24C, 0x24C), (0x24E, 0x24E), (0x370, 0x370), (0x372, 0x372),
    (0x376, 0x376), (0x37F, 0x37F), (0x386, 0x386), (0x388, 0x38A), (0x38C, 0x38C),
    (0x38E, 0x38F), (0x391, 0x3A1), (0x3A3, 0x3AB), (0x3CF, 0x3CF), (0x3D2, 0x3D4),
    (0x3D8, 0x3D8), (0x3DA, 0x3DA), (0x3DC, 0x3DC), (0x3DE, 0x3DE), (0x3E0, 0x3E0),
    (0x3E2, 0x3E2), (0x3E4, 0x3E4), (0x3E6, 0x3E6), (0x3E8, 0x3E8), (0x3EA, 0x3EA),
    (0x3EC, 0x3EC), (0x3EE, 0x3EE), (0x3F4, 0x3F4), (0x3F7, 0x3F7), (0x3F9, 0x3FA),
    (0x3FD, 0x42F), (0x460, 0x460), (0x462, 0x462), (0x464, 0x464), (0x466, 0x466),
    (0x468, 0x468), (0x46A, 0x46A), (0x46C, 0x46C), (0x46E, 0x46E), (0x470, 0x470),
    (0x472, 0x472), (0x474, 0x474), (0x476, 0x476), (0x478, 0x478), (0x47A, 0x47A),
    (0x47C, 0x47C), (0x47E, 0x47E), (0x480, 0x480), (0x48A, 0x48A), (0x48C, 0x48C),
    (0x48E, 0x48E), (0x490, 0x490), (0x492, 0x492), (0x494, 0x494), (0x496, 0x496),
    (0x498, 0x498), (0x49A, 0x49A), (0x49C, 0x49C), (0x49E, 0x49E), (0x4A0, 0x4A0),
    (0x4A2, 0x4A2), (0x4A4, 0x4A4), (0x4A6, 0x4A6), (0x4A8, 0x4A8), (0x4AA, 0x4AA),
    (0x4AC, 0x4AC), (0x4AE, 0x4AE), (0x4B0, 0x4B0), (0x4B2, 0x4B2), (0x4B4, 0x4B4),
    (0x4B6, 0x4B6), (0x4B8, 0x4B8), (0x4BA, 0x4BA), (0x4BC, 0x4BC), (0x4BE, 0x4BE),
    (0x4C0, 0x4C1), (0x4C3, 0x4C3), (0x4C5, 0x4C5), (0x4C7, 0x4C7), (0x4C9, 0x4C9),
    (0x4CB, 0x4CB), (0x4CD, 0x4CD), (0x4D0, 0x4D0), (0x4D2, 0x4D2), (0x4D4, 0x4D4),
    (0x4D6, 0x4D6), (0x4D8, 0x4D8), (0x4DA, 0x4DA), (0x4DC, 0x4DC), (0x4DE, 0x4DE),
    (0x4E0, 0x4E0), (0x4E2, 0x4E2), (0x4E4, 0x4E4), (0x4E6, 0x4E6), (0x4E8, 0x4E8),
    (0x4EA, 0x4EA), (0x4EC, 0x4EC), (0x4EE, 0x4EE), (0x4F0, 0x4F0), (0x4F2, 0x4F2),
    (0x4F4, 0x4F4), (0x4F6, 0x4F6), (0x4F8, 0x4F8), (0x4FA, 0x4FA), (0x4FC, 0x4FC),
    (0x4FE, 0x4FE), (0x500, 0x500), (0x502, 0x502), (0x504, 0x504), (0x506, 0x506),
    (0x508, 0x508), (0x50A, 0x50A), (0x50C, 0x50C), (0x50E, 0x50E), (0x510, 0x510),
    (0x512, 0x512), (0x514, 0x514), (0x516, 0x516), (0x518, 0x518), (0x51A, 0x51A),
    (0x51C, 0x51C), (0x51E, 0x51E), (0x520, 0x520), (0x522, 0x522), (0x524, 0x524),
    (0x526, 0x526), (0x528, 0x528), (0x52A, 0x52A), (0x52C, 0x52C), (0x52E, 0x52E),
    (0x531, 0x556), (0x10A0, 0x10C5), (0x10C7, 0x10C7), (0x10CD, 0x10CD), (0x13A0, 0x13F5),
    (0x1C89, 0x1C89), (0x1C90, 0x1CBA), (0x1CBD, 0x1CBF), (0x1E00, 0x1E00), (0x1E02, 0x1E02),
    (0x1E04, 0x1E04), (0x1E06, 0x1E06), (0x1E08, 0x1E08), (0x1E0A, 0x1E0A), (0x1E0C, 0x1E0C),
    (0x1E0E, 0x1E0E), (0x1E10, 0x1E10), (0x1E12, 0x1E12), (0x1E14, 0x1E14), (0x1E16, 0x1E16),
    (0x1E18, 0x1E18), (0x1E1A, 0x1E1A), (0x1E1C, 0x1E1C), (0x1E1E, 0x1E1E), (0x1E20, 0x1E20),
    (0x1E22, 0x1E22), (0x1E24, 0x1E24), (0x1E26, 0x1E26), (0x1E28, 0x1E28), (0x1E2A, 0x1E2A),
    (0x1E2C, 0x1E2C), (0x1E2E, 0x1E2E), (0x1E30, 0x1E30), (0x1E32, 0x1E32), (0x1E34, 0x1E34),
    (0x1E36, 0x1E36), (0x1E38, 0x1E38), (0x1E3A, 0x1E3A), (0x1E3C, 0x1E3C), (0x1E3E, 0x1E3E),
    (0x1E40, 0x1E40), (0x1E42, 0x1E42), (0x1E44, 0x1E44), (0x1E46, 0x1E46), (0x1E48, 0x1E48),
    (0x1E4A, 0x1E4A), (0x1E4C, 0x1E4C), (0x1E4E, 0x1E4E), (0x1E50, 0x1E50), (0x1E52, 0x1E52),
    (0x1E54, 0x1E54), (0x1E56, 0x1E56), (0x1E58, 0x1E58), (0x1E5A, 0x1E5A), (0x1E5C, 0x1E5C),
    (0x1E5E, 0x1E5E), (0x1E60, 0x1E60), (0x1E62, 0x1E62), (0x1E64, 0x1E64), (0x1E66, 0x1E66),
    (0x1E68, 0x1E68), (0x1E6A, 0x1E6A), (0x1E6C, 0x1E6C), (0x1E6E, 0x1E6E), (0x1E70, 0x1E70),
    (0x1E72, 0x1E72), (0x1E74, 0x1E74), (0x1E76, 0x1E76), (0x1E78, 0x1E78), (0x1E7A, 0x1E7A),
    (0x1E7C, 0x1E7C), (0x1E7E, 0x1E7E), (0x1E80, 0x1E80), (0x1E82, 0x1E82), (0x1E84, 0x1E84),
    (0x1E86, 0x1E86), (0x1E88, 0x1E88), (0x1E8A, 0x1E8A), (0x1E8C, 0x1E8C), (0x1E8E, 0x1E8E),
    (0x1E90, 0x1E90), (0x1E92, 0x1E92), (0x1E94, 0x1E94), (0x1E9E, 0x1E9E), (0x1EA0, 0x1EA0),
    (0x1EA2, 0x1EA2), (0x1EA4, 0x1EA4), (0x1EA6, 0x1EA6), (0x1EA8, 0x1EA8), (0x1EAA, 0x1EAA),
    (0x1EAC, 0x1EAC), (0x1EAE, 0x1EAE), (0x1EB0, 0x1EB0), (0x1EB2, 0x1EB2), (0x1EB4, 0x1EB4),
    (0x1EB6, 0x1EB6), (0x1EB8, 0x1EB8), (0x1EBA, 0x1EBA), (0x1EBC, 0x1EBC), (0x1EBE, 0x1EBE),
    (0x1EC0, 0x1EC0), (0x1EC2, 0x1EC2), (0x1EC4, 0x1EC4), (0x1EC6, 0x1EC6), (0x1EC8, 0x1EC8),
    (0x1ECA, 0x1ECA), (0x1ECC, 0x1ECC), (0x1ECE, 0x1ECE), (0x1ED0, 0x1ED0), (0x1ED2, 0x1ED2),
    (0x1ED4, 0x1ED4), (0x1ED6, 0x1ED6), (0x1ED8, 0x1ED8), (0x1EDA, 0x1EDA), (0x1EDC, 0x1EDC),
    (0x1EDE, 0x1EDE), (0x1EE0, 0x1EE0), (0x1EE2, 0x1EE2), (0x1EE4, 0x1EE4), (0x1EE6, 0x1EE6),
    (0x1EE8, 0x1EE8), (0x1EEA, 0x1EEA), (0x1EEC, 0x1EEC), (0x1EEE, 0x1EEE), (0x1EF0, 0x1EF0),
    (0x1EF2, 0x1EF2), (0x1EF4, 0x1EF4), (0x1EF6, 0x1EF6), (0x1EF8, 0x1EF8), (0x1EFA, 0x1EFA),
    (0x1EFC, 0x1EFC), (0x1EFE, 0x1EFE), (0x1F08, 0x1F0F), (0x1F18, 0x1F1D), (0x1F28, 0x1F2F),
    (0x1F38, 0x1F3F), (0x1F48, 0x1F4D), (0x1F59, 0x1F59), (0x1F5B, 0x1F5B), (0x1F5D, 0x1F5D),
    (0x1F5F, 0x1F5F), (0x1F68, 0x1F6F), (0x1FB8, 0x1FBB), (0x1FC8, 0x1FCB), (0x1FD8, 0x1FDB),
    (0x1FE8, 0x1FEC), (0x1FF8, 0x1FFB), (0x2102, 0x2102), (0x2107, 0x2107), (0x210B, 0x210D),
    (0x2110, 0x2112), (0x2115, 0x2115), (0x2119, 0x211D), (0x2124, 0x2124), (0x2126, 0x2126),
    (0x2128, 0x2128), (0x212A, 0x212D), (0x2130, 0x2133), (0x213E, 0x213F), (0x2145, 0x2145),
    (0x2160, 0x216F), (0x2183, 0x2183), (0x24B6, 0x24CF), (0x2C00, 0x2C2F), (0x2C60, 0x2C60),
    (0x2C62, 0x2C64), (0x2C67, 0x2C67), (0x2C69, 0x2C69), (0x2C6B, 0x2C6B), (0x2C6D, 0x2C70),
    (0x2C72, 0x2C72), (0x2C75, 0x2C75), (0x2C7E, 0x2C80), (0x2C82, 0x2C82), (0x2C84, 0x2C84),
    (0x2C86, 0x2C86), (0x2C88, 0x2C88), (0x2C8A, 0x2C8A), (0x2C8C, 0x2C8C), (0x2C8E, 0x2C8E),
    (0x2C90, 0x2C90), (0x2C92, 0x2C92), (0x2C94, 0x2C94), (0x2C96, 0x2C96), (0x2C98, 0x2C98),
    (0x2C9A, 0x2C9A), (0x2C9C, 0x2C9C), (0x2C9E, 0x2C9E), (0x2CA0, 0x2CA0), (0x2CA2, 0x2CA2),
    (0x2CA4, 0x2CA4), (0x2CA6, 0x2CA6), (0x2CA8, 0x2CA8), (0x2CAA, 0x2CAA), (0x2CAC, 0x2CAC),
    (0x2CAE, 0x2CAE), (0x2CB0, 0x2CB0), (0x2CB2, 0x2CB2), (0x2CB4, 0x2CB4), (0x2CB6, 0x2CB6),
    (0x2CB8, 0x2CB8), (0x2CBA, 0x2CBA), (0x2CBC, 0x2CBC), (0x2CBE, 0x2CBE), (0x2CC0, 0x2CC0),
    (0x2CC2, 0x2CC2), (0x2CC4, 0x2CC4), (0x2CC6, 0x2CC6), (0x2CC8, 0x2CC8), (0x2CCA, 0x2CCA),
    (0x2CCC, 0x2CCC), (0x2CCE, 0x2CCE), (0x2CD0, 0x2CD0), (0x2CD2, 0x2CD2), (0x2CD4, 0x2CD4),
    (0x2CD6, 0x2CD6), (0x2CD8, 0x2CD8), (0x2CDA, 0x2CDA), (0x2CDC, 0x2CDC), (0x2CDE, 0x2CDE),
    (0x2CE0, 0x2CE0), (0x2CE2, 0x2CE2), (0x2CEB, 0x2CEB), (0x2CED, 0x2CED), (0x2CF2, 0x2CF2),
    (0xA640, 0xA640), (0xA642, 0xA642), (0xA644, 0xA644), (0xA646, 0xA646), (0xA648, 0xA648),
    (0xA64A, 0xA64A), (0xA64C, 0xA64C), (0xA64E, 0xA64E), (0xA650, 0xA650), (0xA652, 0xA652),
    (0xA654, 0xA654), (0xA656, 0xA656), (0xA658, 0xA658), (0xA65A, 0xA65A), (0xA65C, 0xA65C),
    (0xA65E, 0xA65E), (0xA660, 0xA660), (0xA662, 0xA662), (0xA664, 0xA664), (0xA666, 0xA666),
    (0xA668, 0xA668), (0xA66A, 0xA66A), (0xA66C, 0xA66C), (0xA680, 0xA680), (0xA682, 0xA682),
    (0xA684, 0xA684), (0xA686, 0xA686), (0xA688, 0xA688), (0xA68A, 0xA68A), (0xA68C, 0xA68C),
    (0xA68E, 0xA68E), (0xA690, 0xA690), (0xA692, 0xA692), (0xA694, 0xA694), (0xA696, 0xA696),
    (0xA698, 0xA698), (0xA69A, 0xA69A), (0xA722, 0xA722), (0xA724, 0xA724), (0xA726, 0xA726),
    (0xA728, 0xA728), (0xA72A, 0xA72A), (0xA72C, 0xA72C), (0xA72E, 0xA72E), (0xA732, 0xA732),
    (0xA734, 0xA734), (0xA736, 0xA736), (0xA738, 0xA738), (0xA73A, 0xA73A), (0xA73C, 0xA73C),
    (0xA73E, 0xA73E), (0xA740, 0xA740), (0xA742, 0xA742), (0xA744, 0xA744), (0xA746, 0xA746),
    (0xA748, 0xA748), (0xA74A, 0xA74A), (0xA74C, 0xA74C), (0xA74E, 0xA74E), (0xA750, 0xA750),
    (0xA752, 0xA752), (0xA754, 0xA754), (0xA756, 0xA756), (0xA758, 0xA758), (0xA75A, 0xA75A),
    (0xA75C, 0xA75C), (0xA75E, 0xA75E), (0xA760, 0xA760), (0xA762, 0xA762), (0xA764, 0xA764),
    (0xA766, 0xA766), (0xA768, 0xA768), (0xA76A, 0xA76A), (0xA76C, 0xA76C), (0xA76E, 0xA76E),
    (0xA779, 0xA779), (0xA77B, 0xA77B), (0xA77D, 0xA77E), (0xA780, 0xA780), (0xA782, 0xA782),
    (0xA784, 0xA784), (0xA786, 0xA786), (0xA78B, 0xA78B), (0xA78D, 0xA78D), (0xA790, 0xA790),
    (0xA792, 0xA792), (0xA796, 0xA796), (0xA798, 0xA798), (0xA79A, 0xA79A), (0xA79C, 0xA79C),
    (0xA79E, 0xA79E), (0xA7A0, 0xA7A0), (0xA7A2, 0xA7A2), (0xA7A4, 0xA7A4), (0xA7A6, 0xA7A6),
    (0xA7A8, 0xA7A8), (0xA7AA, 0xA7AE), (0xA7B0, 0xA7B4), (0xA7B6, 0xA7B6), (0xA7B8, 0xA7B8),
    (0xA7BA, 0xA7BA), (0xA7BC, 0xA7BC), (0xA7BE, 0xA7BE), (0xA7C0, 0xA7C0), (0xA7C2, 0xA7C2),
    (0xA7C4, 0xA7C7), (0xA7C9, 0xA7C9), (0xA7CB, 0xA7CC), (0xA7CE, 0xA7CE), (0xA7D0, 0xA7D0),
    (0xA7D2, 0xA7D2), (0xA7D4, 0xA7D4), (0xA7D6, 0xA7D6), (0xA7D8, 0xA7D8), (0xA7DA, 0xA7DA),
    (0xA7DC, 0xA7DC), (0xA7F5, 0xA7F5), (0xFF21, 0xFF3A), (0x10400, 0x10427), (0x104B0, 0x104D3),
    (0x10570, 0x1057A), (0x1057C, 0x1058A), (0x1058C, 0x10592), (0x10594, 0x10595),
    (0x10C80, 0x10CB2), (0x10D50, 0x10D65), (0x118A0, 0x118BF), (0x16E40, 0x16E5F),
    (0x16EA0, 0x16EB8), (0x1D400, 0x1D419), (0x1D434, 0x1D44D), (0x1D468, 0x1D481),
    (0x1D49C, 0x1D49C), (0x1D49E, 0x1D49F), (0x1D4A2, 0x1D4A2), (0x1D4A5, 0x1D4A6),
    (0x1D4A9, 0x1D4AC), (0x1D4AE, 0x1D4B5), (0x1D4D0, 0x1D4E9), (0x1D504, 0x1D505),
    (0x1D507, 0x1D50A), (0x1D50D, 0x1D514), (0x1D516, 0x1D51C), (0x1D538, 0x1D539),
    (0x1D53B, 0x1D53E), (0x1D540, 0x1D544), (0x1D546, 0x1D546), (0x1D54A, 0x1D550),
    (0x1D56C, 0x1D585), (0x1D5A0, 0x1D5B9), (0x1D5D4, 0x1D5ED), (0x1D608, 0x1D621),
    (0x1D63C, 0x1D655), (0x1D670, 0x1D689), (0x1D6A8, 0x1D6C0), (0x1D6E2, 0x1D6FA),
    (0x1D71C, 0x1D734), (0x1D756, 0x1D76E), (0x1D790, 0x1D7A8), (0x1D7CA, 0x1D7CA),
    (0x1E900, 0x1E921), (0x1F130, 0x1F149), (0x1F150, 0x1F169), (0x1F170, 0x1F189)]

/-- Uppercase letters and the symbols that count as such. -/
def isUppercase (c : Char) : Bool := uppercase.has c.toNat

end EntityModels.Unicode
